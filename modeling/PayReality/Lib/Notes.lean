import PayReality.Lib.Runs

/-!
# Reports in the middle of a program

A program that does one thing after the other notes the end of each of them, with what it has sent
for it.

* `Prog.noted`: a part of a program, which reports how it ends.
* `Reach.noting`: the invariants of runs of such programs. What a report says of the store holds of it
  from then on.
* `Faithful`: the answers are such as the machine gives, as far as the statement about the program
  depends on it.
* `Followed`: the same, where what an answer has to be depends on what was answered before.
-/

namespace Program

variable {Q : Type} {A : Q → Type} {ε σ ι ρ α β : Type}

/-- A part of a program, which reports its end. -/
def Prog.noted (m : Except ε α → ρ) :
    Prog Q A ε α → Prog (Q ⊕ ρ) (ReportAnswer A ρ) ε α
  | .ret a => .call (.inr (m (.ok a))) fun _ => .ret a
  | .raise e => .call (.inr (m (.error e))) fun _ => .raise e
  | .call q k => .call (.inl q) fun r => (k r).noted m

theorem erased_noted {m : Except ε α → ρ} (p : Prog Q A ε α) : (p.noted m).erased = p := by
  induction p with
  | ret a => rfl
  | raise e => rfl
  | call q k ih => exact congrArg (Prog.call q) (funext ih)

theorem erased_bind (p : Prog (Q ⊕ ρ) (ReportAnswer A ρ) ε α)
    (f : α → Prog (Q ⊕ ρ) (ReportAnswer A ρ) ε β) :
    (p >>= f).erased = p.erased >>= fun a => (f a).erased := by
  induction p with
  | ret a => rfl
  | raise e => rfl
  | call q k ih =>
    cases q with
    | inl q => exact congrArg (Prog.call q) (funext ih)
    | inr x => exact ih (.ok ())

section

variable [DecidableEq ι] {M : Machine Q A ε σ ι} {P : Q → List (Answered Q A ε) → Prop}
  {R : ρ → List (Answered Q A ε) → Prop} {G : ρ → σ → Prop}

/-- What `G` says of a report stays true of the store. -/
def Lasting (M : Machine Q A ε σ ι) (P : Q → List (Answered Q A ε) → Prop) (G : ρ → σ → Prop) : Prop :=
  ∀ i q s r t tr x, P q tr → M.step i q s r t → G x s → G x t

/-- The contract of programs that send as `P` says, and report as `R` says of the trace and `G` of the
store. -/
def notingLogic (R : ρ → List (Answered Q A ε) → Prop) (hG : Lasting M P G) :
    Logic (M.reporting ρ) where
  inv _ := True
  pre i
    | .inl q, s => P q (s.trace i)
    | .inr x, s => R x (s.trace i) ∧ G x s.store
  rely i s t := t.trace i = s.trace i ∧ ∀ x, G x s.store → G x t.store
  idle i s := s.trace i = []
  inv_step _ _ _ := trivial
  rely_refl _ _ := ⟨rfl, fun _ h => h⟩
  rely_trans h h' := ⟨h'.1.trans h.1, fun x hx => h'.2 x (h.2 x hx)⟩
  rely_step := by
    intro i j q s r t hij _ hpre hstep
    cases q with
    | inl q =>
      obtain ⟨u, hstep, rfl⟩ := hstep
      exact ⟨Reported.sent_trace_of_ne hij.symm, fun x => hG i q _ r u _ x hpre hstep⟩
    | inr x =>
      obtain ⟨-, rfl⟩ := hstep
      exact ⟨Reported.report_trace_of_ne hij.symm, fun _ h => h⟩
  idle_rely h hst := hst.1.trans h

variable {hG : Lasting M P G} {i : ι} {s : Reported Q A ε σ ι ρ}

/-- A statement of such a program. -/
theorem wp_noting_call {q : Q} {k : Except ε (A q) → Prog (Q ⊕ ρ) (ReportAnswer A ρ) ε α}
    {R' : α → Reported Q A ε σ ι ρ → Prop} {E : ε → Reported Q A ε σ ι ρ → Prop}
    (hP : P q (s.trace i))
    (hk : ∀ r u t, M.step i q u r t → (∀ x, G x s.store → G x t) →
      ∀ v : Reported Q A ε σ ι ρ, v.store = t → v.trace i = s.trace i ++ [⟨q, r⟩] →
        wp (notingLogic R hG) i (k r) R' E v) :
    wp (notingLogic R hG) i (.call (.inl q) k) R' E s := by
  intro t hst _
  refine ⟨?_, ?_⟩
  · show P q (t.trace i)
    rw [hst.1]
    exact hP
  · rintro r _ ⟨u, hstep, rfl⟩
    refine hk r t.store u hstep (fun x hx => ?_) _ rfl ?_
    · exact hG i q _ r u _ x hP hstep (hst.2 x hx)
    · rw [Reported.sent_trace_self, hst.1]

/-- A report of such a program. -/
theorem wp_noting_report {x : ρ} {k : Except ε Unit → Prog (Q ⊕ ρ) (ReportAnswer A ρ) ε α}
    {R' : α → Reported Q A ε σ ι ρ → Prop} {E : ε → Reported Q A ε σ ι ρ → Prop}
    (hR : R x (s.trace i)) (hx : G x s.store)
    (hk : ∀ v : Reported Q A ε σ ι ρ, (∀ y, G y s.store → G y v.store) → v.trace i = [] →
      wp (notingLogic R hG) i (k (.ok ())) R' E v) :
    wp (notingLogic R hG) i (.call (.inr x) k) R' E s := by
  intro t hst _
  refine ⟨⟨?_, hst.2 x hx⟩, ?_⟩
  · rw [hst.1]
    exact hR
  · rintro r u ⟨rfl, rfl⟩
    exact hk _ hst.2 Reported.report_trace_self

/-- A part that ends in what its report says. -/
theorem wp_noted {p : Prog Q A ε α} {m : Except ε α → ρ}
    (hp : Sending P p (fun a => R (m (.ok a))) (fun e => R (m (.error e))) (s.trace i))
    (hx : ∀ x, G (m x) s.store) :
    wp (notingLogic R hG) i (p.noted m)
      (fun _ t => t.trace i = [] ∧ ∀ y, G y s.store → G y t.store)
      (fun _ t => t.trace i = [] ∧ ∀ y, G y s.store → G y t.store) s := by
  induction p generalizing s with
  | ret a => exact wp_noting_report hp (hx _) fun v hv htrace => ⟨htrace, hv⟩
  | raise e => exact wp_noting_report hp (hx _) fun v hv htrace => ⟨htrace, hv⟩
  | call q k ih =>
    refine wp_noting_call hp.1 fun r u t _ hut v hv htrace => ?_
    have hlast : ∀ y, G y s.store → G y v.store := fun y hy => by
      rw [hv]
      exact hut y hy
    refine wp_mono (ih r (by rw [htrace]; exact hp.2 r) fun x => hlast _ (hx x)) ?_ ?_
    · exact fun _ t h => ⟨h.1, fun y hy => h.2 y (hlast y hy)⟩
    · exact fun _ t h => ⟨h.1, fun y hy => h.2 y (hlast y hy)⟩

/-- **Invariants of runs of such programs.** -/
theorem Reach.noting {c : ι → (q : Q ⊕ ρ) → Reported Q A ε σ ι ρ →
      Except ε (ReportAnswer A ρ q) → Prop} {starts : Set (Prog (Q ⊕ ρ) (ReportAnswer A ρ) ε Unit)}
    (hG : Lasting M P G) (hs : ∀ p ∈ starts, (notingLogic R hG).Keeps p)
    {init : Reported Q A ε σ ι ρ → Prop} {J : Reported Q A ε σ ι ρ → Prop}
    (hinit : ∀ s, init s → (∀ i, s.trace i = []) ∧ J s)
    (hJ : ∀ i q s r t, P q (s.trace i) → M.step i q s.store r t → c i (.inl q) s r → J s →
      J (s.sent i q r t))
    (hreport : ∀ i x s, R x (s.trace i) → G x s.store → J s → J (s.report i x))
    {w : World (Q ⊕ ρ) (ReportAnswer A ρ) ε (Reported Q A ε σ ι ρ) ι}
    (h : Reach ((M.reporting ρ).restrict c) starts init w) :
    J w.store ∧ ∀ i, w.running i = none → w.store.trace i = [] := by
  refine ⟨?_, fun i hi => ?_⟩
  · refine h.invariant hs (fun s hs => ⟨trivial, (hinit s hs).1⟩) (fun s hs => (hinit s hs).2) ?_
    intro i q s r t _ _ hpre hstep hc hs
    cases q with
    | inl q =>
      obtain ⟨u, hstep, rfl⟩ := hstep
      exact hJ i q s r u hpre hstep hc hs
    | inr x =>
      obtain ⟨-, rfl⟩ := hstep
      exact hreport i x s hpre.1 hpre.2 hs
  · have hlocal := (h.of_restrict.sound hs fun s hs => ⟨trivial, (hinit s hs).1⟩).2 i
    rw [Logic.local, hi] at hlocal
    exact hlocal

end

/-! ## What was sent for what -/

namespace Reported

/-- What has been sent for the report of a number, and what a process has sent since its last one. -/
def attempt (s : Reported Q A ε σ ι ρ) : ℕ ⊕ ι → List (Answered Q A ε)
  | .inl n => (s.reports[n]?.map Prod.snd).getD []
  | .inr i => s.trace i

variable [DecidableEq ι] {s : Reported Q A ε σ ι ρ} {i : ι} {q : Q} {r : Except ε (A q)} {t : σ}
  {x : ρ}

/-- What holds of every trace. -/
theorem forall_sent_trace {K : List (Answered Q A ε) → Prop} (h : ∀ j, K (s.trace j))
    (hi : K (s.trace i ++ [⟨q, r⟩])) (j : ι) : K ((s.sent i q r t).trace j) := by
  by_cases hj : j = i
  · rw [hj, sent_trace_self]
    exact hi
  · rw [sent_trace_of_ne hj]
    exact h j

theorem forall_report_trace {K : List (Answered Q A ε) → Prop} (h : ∀ j, K (s.trace j)) (hnil : K [])
    (j : ι) : K ((s.report i x).trace j) := by
  by_cases hj : j = i
  · rw [hj, report_trace_self]
    exact hnil
  · rw [report_trace_of_ne hj]
    exact h j

theorem attempt_sent_self : (s.sent i q r t).attempt (.inr i) = s.attempt (.inr i) ++ [⟨q, r⟩] :=
  sent_trace_self

theorem attempt_sent_of_ne {a : ℕ ⊕ ι} (h : a ≠ .inr i) : (s.sent i q r t).attempt a = s.attempt a := by
  cases a with
  | inl n => rfl
  | inr j => exact sent_trace_of_ne fun hj => h (congrArg Sum.inr hj)

/-- Where an attempt is found before the report of process `i`. -/
def attemptBefore (s : Reported Q A ε σ ι ρ) (i : ι) : ℕ ⊕ ι → ℕ ⊕ ι
  | .inl n => if n = s.reports.length then .inr i else .inl n
  | .inr j => .inr j

/-- A report numbers what was sent for it, and begins anew. -/
theorem attempt_report (a : ℕ ⊕ ι) : (s.report i x).attempt a = [] ∧ (a = .inr i) ∨
    (s.report i x).attempt a = s.attempt (s.attemptBefore i a) ∧ a ≠ .inr i := by
  cases a with
  | inl n =>
    refine .inr ⟨?_, nofun⟩
    rw [attemptBefore]
    split
    · next hn =>
      show ((s.reports ++ [(x, s.trace i)])[n]?.map Prod.snd).getD [] = s.trace i
      rw [hn, List.getElem?_concat_length]
      rfl
    · next hn =>
      show ((s.reports ++ [(x, s.trace i)])[n]?.map Prod.snd).getD [] = _
      rcases Nat.lt_or_gt_of_ne hn with hlt | hgt
      · rw [List.getElem?_append_left hlt]
        rfl
      · rw [List.getElem?_eq_none (by simp; omega), attempt, List.getElem?_eq_none (by omega)]
  | inr j =>
    by_cases hj : j = i
    · subst hj
      exact .inl ⟨report_trace_self, rfl⟩
    · exact .inr ⟨report_trace_of_ne hj, fun h => hj (Sum.inr.inj h)⟩

omit [DecidableEq ι] in
theorem attemptBefore_inj {a b : ℕ ⊕ ι} (ha : a ≠ .inr i) (hb : b ≠ .inr i)
    (h : s.attemptBefore i a = s.attemptBefore i b) : a = b := by
  have hcases : ∀ c : ℕ ⊕ ι, c ≠ .inr i → s.attemptBefore i c = .inr i ∧ c = .inl s.reports.length ∨
      s.attemptBefore i c = c ∧ c ≠ .inl s.reports.length := by
    intro c hc
    cases c with
    | inl n =>
      by_cases hn : n = s.reports.length
      · exact .inl ⟨if_pos hn, congrArg Sum.inl hn⟩
      · exact .inr ⟨if_neg hn, fun h => hn (Sum.inl.inj h)⟩
    | inr j => exact .inr ⟨rfl, nofun⟩
  rcases hcases a ha with ⟨ha', hla⟩ | ⟨ha', -⟩
  · rcases hcases b hb with ⟨-, hlb⟩ | ⟨hb', -⟩
    · exact hla.trans hlb.symm
    · exact absurd (hb'.symm.trans (h.symm.trans ha')) hb
  · rcases hcases b hb with ⟨hb', -⟩ | ⟨hb', -⟩
    · exact absurd (ha'.symm.trans (h.trans hb')) ha
    · exact ha'.symm.trans (h.trans hb')

/-- Where an attempt is found after a report. -/
theorem exists_attempt_report (a : ℕ ⊕ ι) (ha : s.attempt a ≠ []) :
    ∃ b, (s.report i x).attempt b = s.attempt a := by
  cases a with
  | inl n =>
    by_cases hn : n < s.reports.length
    · refine ⟨.inl n, ?_⟩
      show ((s.reports ++ [(x, s.trace i)])[n]?.map Prod.snd).getD [] = _
      rw [List.getElem?_append_left hn]
      rfl
    · refine absurd ?_ ha
      rw [attempt, List.getElem?_eq_none (by omega)]
      rfl
  | inr j =>
    by_cases hj : j = i
    · refine ⟨.inl s.reports.length, ?_⟩
      show ((s.reports ++ [(x, s.trace i)])[s.reports.length]?.map Prod.snd).getD [] = s.trace j
      rw [List.getElem?_concat_length, hj]
      rfl
    · exact ⟨.inr j, report_trace_of_ne hj⟩

end Reported

/-! ## Programs and the answers to their statements -/

/-- Every statement has been answered as `V` says. -/
def Faithful (V : Answered Q A ε → Prop) (tr : List (Answered Q A ε)) : Prop := ∀ x ∈ tr, V x

/-- Every statement has been answered as `V` says of it and of what was answered before it. -/
def Followed (V : List (Answered Q A ε) → Answered Q A ε → Prop) (tr : List (Answered Q A ε)) : Prop :=
  ∀ pre x, pre ++ [x] <+: tr → V pre x

section

variable {V : List (Answered Q A ε) → Answered Q A ε → Prop} {tr : List (Answered Q A ε)}
  {x : Answered Q A ε}

theorem followed_nil : Followed V [] := by
  intro pre x h
  simp at h

theorem Followed.left (h : Followed V (tr ++ [x])) : Followed V tr :=
  fun pre y hy => h pre y (hy.trans (List.prefix_append tr [x]))

theorem Followed.last (h : Followed V (tr ++ [x])) : V tr x := h tr x (List.prefix_refl _)

theorem Followed.concat (h : Followed V tr) (hx : V tr x) : Followed V (tr ++ [x]) := by
  intro pre y hy
  rcases List.prefix_concat_iff.1 hy with heq | hy
  · obtain ⟨rfl, hxy⟩ := List.append_inj' heq rfl
    rw [(List.cons.inj hxy).1]
    exact hx
  · exact h pre y hy

end

section

variable {V : Answered Q A ε → Prop} {P : Q → List (Answered Q A ε) → Prop} {p : Prog Q A ε α}
  {R : α → List (Answered Q A ε) → Prop} {E : ε → List (Answered Q A ε) → Prop}
  {tr : List (Answered Q A ε)}

theorem Faithful.left {tr' : List (Answered Q A ε)} (h : Faithful V (tr ++ tr')) : Faithful V tr :=
  fun x hx => h x (List.mem_append_left _ hx)

theorem Faithful.last {x : Answered Q A ε} (h : Faithful V (tr ++ [x])) : V x :=
  h x (List.mem_append_right _ (List.mem_singleton_self x))

/-- A program that sends only what `P'` allows, where that keeps `I`. -/
theorem sending_keeps {P' : Q → Prop} {I : List (Answered Q A ε) → Prop}
    (h : Sends P' (fun _ _ => True) p fun _ => True) (hP : ∀ q tr, P' q → I tr → P q tr)
    (hI : ∀ q r tr, P' q → I tr → I (tr ++ [⟨q, r⟩])) (htr : I tr) :
    Sending P p (fun _ => I) (fun _ => I) tr := by
  induction p generalizing tr with
  | ret a => exact htr
  | raise e => exact htr
  | call q k ih => exact ⟨hP q tr h.1 htr, fun r => ih r (h.2 r trivial) (hI q r tr h.1 htr)⟩

/-- What a program raises is in `F`, if the faults that it is answered are. -/
theorem sending_of_raises {F : ε → Prop}
    (h : Faithful (fun x => ∀ e, x.2 = .error e → F e) tr → Raises F p) :
    Sending (fun _ _ => True) p (fun _ _ => True)
      (fun e tr => Faithful (fun x => ∀ e, x.2 = .error e → F e) tr → F e) tr := by
  induction p generalizing tr with
  | ret a => trivial
  | raise e => exact h
  | call q k ih => exact ⟨trivial, fun r => ih r fun hfaithful => h hfaithful.left r hfaithful.last⟩

end

end Program
