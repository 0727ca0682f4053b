import PayReality.Lib.RecordReports
import PayReality.Lib.Runs

/-!
# What is done once

Some changes have a key, and are committed only by an `UPDATE` whose condition says that what has this
key is not done. Once it is done, it stays done.

* `keysOf`: the keys of what an operation has committed.
* `Plainly`: a program that commits such changes in no other way.
* `OnlyOnce`: no key is in the traces of two operations.

**Main result** `Reach.once`, for every run of such programs.
-/

namespace Program

variable {D W N ε ι ρ κ α β : Type} (key : W → Option κ)

/-- The keys of what a trace has committed. -/
def keysOf (tr : List (Answered (RecordStatement W) (RecordStatement.Answer D N) ε)) : List κ :=
  (changes tr).filterMap key

/-- A change with a key is not sent without its condition. -/
def RecordStatement.plain : RecordStatement W → Prop
  | .commit w => key w = none
  | _ => True

/-! ## Programs -/

/-- The program sends no change with a key without its condition. -/
abbrev Plainly (p : RecordProg D W N ε α) : Prop :=
  Sends (RecordStatement.plain key) (fun _ _ => True) p fun _ => True

section

variable {key} {p : RecordProg D W N ε α}

theorem Plainly.bind {f : α → RecordProg D W N ε β} (hp : Plainly key p)
    (hf : ∀ a, Plainly key (f a)) : Plainly key (p >>= f) :=
  sends_bind (sends_mono hp fun a _ => hf a)

theorem Plainly.handle {g : ε → RecordProg D W N ε α} (hp : Plainly key p)
    (hg : ∀ e, Plainly key (g e)) : Plainly key (tryCatch p g) :=
  sends_tryCatch hp hg

theorem Plainly.raise (e : ε) : Plainly key (throw e : RecordProg D W N ε α) := trivial

theorem Plainly.look : Plainly key (RecordProg.look : RecordProg D W N ε D) :=
  sends_send trivial fun _ _ => trivial

theorem Plainly.draw : Plainly key (RecordProg.draw : RecordProg D W N ε N) :=
  sends_send trivial fun _ _ => trivial

theorem Plainly.rollback : Plainly key (RecordProg.rollback : RecordProg D W N ε Unit) :=
  sends_send trivial fun _ _ => trivial

theorem Plainly.commit {w : W} (hw : key w = none) :
    Plainly key (RecordProg.commit w : RecordProg D W N ε Unit) :=
  sends_send hw fun _ _ => trivial

theorem Plainly.commitIf {w : W} :
    Plainly key (RecordProg.commitIf w : RecordProg D W N ε Bool) :=
  sends_send trivial fun _ _ => trivial

theorem Plainly.lift (x : Except ε α) : Plainly key (RecordProg.lift x : RecordProg D W N ε α) := by
  cases x <;> trivial

/-- A program that only reads. -/
theorem Reads.plainly (hp : Reads p) : Plainly key p := by
  induction p with
  | ret a => trivial
  | raise e => trivial
  | call q k ih =>
    refine ⟨?_, fun r _ => ih r (hp.2 r)⟩
    cases q with
    | commit w => cases hp.1
    | _ => trivial

theorem Plainly.answering (hp : Plainly key p) : Plainly key (answering p) :=
  .bind (.handle hp fun e => .bind .rollback fun _ => .raise e) fun _ => .bind .rollback fun _ => trivial

end

/-! ## Runs -/

/-- What is done once: each key is committed only while it is not done, and is done from then on. -/
structure Schema.DoneBy (S : Schema D W ε) (Done : κ → D → Prop) : Prop where
  fresh : ∀ {w k d}, key w = some k → S.isMet w d = true → ¬ Done k d
  done : ∀ {w k d}, key w = some k → S.isMet w d = true → Done k (S.apply w d)
  stays : ∀ {w k d}, Done k d → Done k (S.apply w d)

/-- No key is in the traces of two operations, and each of them is done. -/
structure OnlyOnce (Done : κ → D → Prop)
    (s : Reported (RecordStatement W) (RecordStatement.Answer D N) ε (Records D ι) ι ρ) : Prop where
  running : ∀ i, ∀ k ∈ keysOf key (s.trace i), Done k s.store.db
  ended : ∀ e ∈ s.reports, ∀ k ∈ keysOf key e.2, Done k s.store.db
  apart : ∀ i j, i ≠ j → List.Disjoint (keysOf key (s.trace i)) (keysOf key (s.trace j))
  since : ∀ i, ∀ e ∈ s.reports, List.Disjoint (keysOf key e.2) (keysOf key (s.trace i))
  reports : s.reports.Pairwise fun e e' => List.Disjoint (keysOf key e.2) (keysOf key e'.2)

section

variable [DecidableEq ι] {key} {S : Schema D W ε} {Done : κ → D → Prop}
  {s : Reported (RecordStatement W) (RecordStatement.Answer D N) ε (Records D ι) ι ρ}

theorem keysOf_sent (i : ι) (q : RecordStatement W) (r : Except ε (q.Answer D N)) (t : Records D ι) :
    keysOf key ((s.sent i q r t).trace i) =
      keysOf key (s.trace i) ++ (q.committed r).filterMap key := by
  rw [Reported.sent_trace_self, keysOf, changes_append, List.filterMap_append]
  exact congrArg (fun l => keysOf key (s.trace i) ++ List.filterMap key l) (List.append_nil _)

/-- What a statement commits is new, and done afterwards; what was done stays done. -/
theorem Schema.DoneBy.react (h : S.DoneBy key Done) {q : RecordStatement W}
    {r : Except ε (q.Answer D N)} {d d' : D} (hq : RecordStatement.plain key q)
    (hr : S.react q d r d') :
    (∀ k ∈ (q.committed r).filterMap key, ¬ Done k d ∧ Done k d') ∧ ∀ k, Done k d → Done k d' := by
  cases q with
  | look =>
    rw [hr.2]
    exact ⟨fun k hk => (by cases hk), fun _ hk => hk⟩
  | draw =>
    rw [hr.2]
    exact ⟨fun k hk => (by cases hk), fun _ hk => hk⟩
  | rollback =>
    rw [hr.2]
    exact ⟨fun k hk => (by cases hk), fun _ hk => hk⟩
  | commit w =>
    have hnone : ∀ k ∈ ((RecordStatement.commit w).committed r).filterMap key,
        ¬ Done k d ∧ Done k d' := by
      intro k hk
      obtain ⟨w', hw', hkey⟩ := List.mem_filterMap.1 hk
      have hw : w' = w := by
        cases r with
        | ok a => exact List.mem_singleton.1 hw'
        | error e => cases hw'
      rw [hw, show key w = none from hq] at hkey
      cases hkey
    refine ⟨hnone, fun k hk => ?_⟩
    rcases hr with hr | ⟨-, rfl⟩
    · split at hr
      · exact hr.2 ▸ h.stays hk
      · exact hr.2 ▸ hk
    · exact hk
  | commitIf w =>
    rcases hr with hr | ⟨rfl, rfl⟩
    · split at hr
      · next hmet =>
        split at hr
        · obtain ⟨rfl, rfl⟩ := hr
          refine ⟨fun k hk => ?_, fun k hk => h.stays hk⟩
          obtain ⟨w', hw', hkey⟩ := List.mem_filterMap.1 hk
          rw [List.mem_singleton.1 hw'] at hkey
          exact ⟨h.fresh hkey hmet, h.done hkey hmet⟩
        · obtain ⟨rfl, rfl⟩ := hr
          exact ⟨fun k hk => (by cases hk), fun _ hk => hk⟩
      · obtain ⟨rfl, rfl⟩ := hr
        exact ⟨fun k hk => (by cases hk), fun _ hk => hk⟩
    · exact ⟨fun k hk => (by cases hk), fun _ hk => hk⟩

/-- A statement keeps it. -/
theorem OnlyOnce.sent (hs : OnlyOnce key Done s) (h : S.DoneBy key Done) {i : ι}
    {q : RecordStatement W} {r : Except ε (q.Answer D N)} {t : Records D ι}
    (hq : RecordStatement.plain key q) (hstep : S.step i q s.store r t) :
    OnlyOnce key Done (s.sent i q r t) := by
  obtain ⟨hnew, hstays⟩ := h.react hq (Schema.react_of_step hstep)
  have hself : keysOf key ((s.sent i q r t).trace i) =
      keysOf key (s.trace i) ++ (q.committed r).filterMap key := keysOf_sent i q r t
  have hother : ∀ {j}, j ≠ i → (s.sent i q r t).trace j = s.trace j := Reported.sent_trace_of_ne
  -- what is done is in the trace of nobody who goes on
  have hfresh : ∀ k ∈ (q.committed r).filterMap key, ∀ j, k ∉ keysOf key (s.trace j) :=
    fun k hk j hj => (hnew k hk).1 (hs.running j k hj)
  constructor
  · intro j k hk
    by_cases hj : j = i
    · subst hj
      rw [hself, List.mem_append] at hk
      rcases hk with hk | hk
      · exact hstays k (hs.running j k hk)
      · exact (hnew k hk).2
    · rw [hother hj] at hk
      exact hstays k (hs.running j k hk)
  · exact fun e he k hk => hstays k (hs.ended e he k hk)
  · intro j j' hne
    by_cases hj : j = i
    · subst hj
      rw [hself, hother hne.symm, List.disjoint_append_left]
      exact ⟨hs.apart j j' hne, fun k hk => hfresh k hk j'⟩
    · rw [hother hj]
      by_cases hj' : j' = i
      · subst hj'
        rw [hself, List.disjoint_append_right]
        exact ⟨hs.apart j j' hne, fun k hk hk' => hfresh k hk' j hk⟩
      · rw [hother hj']
        exact hs.apart j j' hne
  · intro j e he
    by_cases hj : j = i
    · subst hj
      rw [hself, List.disjoint_append_right]
      exact ⟨hs.since j e he, fun k hk hk' => (hnew k hk').1 (hs.ended e he k hk)⟩
    · rw [hother hj]
      exact hs.since j e he
  · exact hs.reports

/-- A report keeps it. -/
theorem OnlyOnce.report (hs : OnlyOnce key Done s) (i : ι) (x : ρ) :
    OnlyOnce key Done (s.report i x) := by
  have hself : keysOf key ((s.report i x).trace i) = [] := by
    rw [Reported.report_trace_self]
    rfl
  have hother : ∀ {j}, j ≠ i → (s.report i x).trace j = s.trace j := Reported.report_trace_of_ne
  have hreports : (s.report i x).reports = s.reports ++ [(x, s.trace i)] := rfl
  constructor
  · intro j k hk
    by_cases hj : j = i
    · subst hj
      rw [hself] at hk
      cases hk
    · rw [hother hj] at hk
      exact hs.running j k hk
  · intro e he k hk
    rw [hreports, List.mem_append, List.mem_singleton] at he
    rcases he with he | rfl
    · exact hs.ended e he k hk
    · exact hs.running i k hk
  · intro j j' hne
    by_cases hj : j = i
    · subst hj
      rw [hself]
      exact List.disjoint_nil_left _
    · by_cases hj' : j' = i
      · subst hj'
        rw [hself]
        exact List.disjoint_nil_right _
      · rw [hother hj, hother hj']
        exact hs.apart j j' hne
  · intro j e he
    by_cases hj : j = i
    · subst hj
      rw [hself]
      exact List.disjoint_nil_right _
    · rw [hother hj]
      rw [hreports, List.mem_append, List.mem_singleton] at he
      rcases he with he | rfl
      · exact hs.since j e he
      · exact hs.apart i j (Ne.symm hj)
  · rw [hreports, List.pairwise_append]
    refine ⟨hs.reports, List.pairwise_singleton _ _, fun e he e' he' => ?_⟩
    rw [List.mem_singleton.1 he']
    exact hs.since i e he

/-- **Every key is in the trace of one operation at most.** -/
theorem Reach.once (h : S.DoneBy key Done)
    {starts : Set (Prog (RecordStatement W ⊕ ρ) (ReportAnswer (RecordStatement.Answer D N) ρ) ε Unit)}
    (hs : ∀ p ∈ starts, ∃ (α : Type) (p' : RecordProg D W N ε α) (mk : Except ε α → ρ),
      p = p'.reported mk ∧ Plainly key p')
    {init : Set D}
    {w : World (RecordStatement W ⊕ ρ) (ReportAnswer (RecordStatement.Answer D N) ρ) ε
      (Reported (RecordStatement W) (RecordStatement.Answer D N) ε (Records D ι) ι ρ) ι}
    (hw : Reach ((S.machine N ι).reporting ρ) starts
      (fun s => ∃ d ∈ init, s = Reported.init (Records.init d)) w) :
    OnlyOnce key Done w.store := by
  have hw' : Reach (((S.machine N ι).reporting ρ).restrict fun _ _ _ _ => True) starts
      (fun s => ∃ d ∈ init, s = Reported.init (Records.init d)) w :=
    hw.imp fun _ _ _ _ _ hstep => ⟨hstep, trivial⟩
  refine Reach.sending (P := fun q _ => RecordStatement.plain key q) (R := fun _ _ => True) ?_ ?_ ?_ ?_ hw'
  · intro p hp
    obtain ⟨α, p', mk, rfl, hplain⟩ := hs p hp
    exact ⟨α, p', mk, rfl, sending_of_sends hplain (fun _ _ h => h) (fun _ _ _ => trivial)
      fun _ _ _ => trivial⟩
  · rintro s ⟨d, -, rfl⟩
    refine ⟨fun _ => rfl, ⟨?_, ?_, ?_, ?_, .nil⟩⟩
    · exact fun i k hk => (by cases hk)
    · exact fun e he => (by cases he)
    · exact fun i j _ => List.disjoint_nil_left _
    · exact fun i e he => (by cases he)
  · exact fun i q s r t hq hstep _ hs => hs.sent h hq hstep
  · exact fun i x s _ hs => hs.report i x

end

end Program
