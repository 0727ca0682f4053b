import PayReality.Lib.Records
import PayReality.Lib.Reports

/-!
# How operations over records end

`Ends S R p Q ws d`: from the database `d`, with the changes `ws` committed, the program ends as `Q`
says of its result, of what it has committed and of the database. Between two of its statements the
database may move on along `R`.

* With `R` the growth of the database, `Reach.reports`: in a run, `Q` is true of every report.
* With equality for `R`, `Exec.ends`: it is true of an operation that is run alone.
-/

namespace Program

variable {D W N ε ι α β ρ : Type}

/-- What a statement answers, and what it leaves of the database. -/
def Schema.react (S : Schema D W ε) :
    (q : RecordStatement W) → D → Except ε (q.Answer D N) → D → Prop
  | .look, d, r, d' => (r = .ok d ∨ r = .error S.failed) ∧ d' = d
  | .draw, d, r, d' => (∃ x, r = .ok x) ∧ d' = d
  | .commit w, d, r, d' =>
      (if S.admits (S.apply w d) then r = .ok () ∧ d' = S.apply w d
        else r = .error S.refused ∧ d' = d) ∨ r = .error S.failed ∧ d' = d
  | .commitIf w, d, r, d' =>
      (if S.isMet w d then
        if S.admits (S.apply w d) then r = .ok true ∧ d' = S.apply w d
        else r = .error S.refused ∧ d' = d
      else r = .ok false ∧ d' = d) ∨ r = .error S.failed ∧ d' = d
  | .rollback, d, r, d' => r = .ok () ∧ d' = d

/-- What a statement has committed, by its answer. -/
def RecordStatement.committed : (q : RecordStatement W) → Except ε (q.Answer D N) → List W
  | .commit w, .ok () => [w]
  | .commitIf w, .ok true => [w]
  | _, _ => []

/-- What a trace has committed. -/
def changes (tr : List (Answered (RecordStatement W) (RecordStatement.Answer D N) ε)) : List W :=
  tr.flatMap fun a => a.1.committed a.2

@[simp] theorem changes_append (tr tr' : List (Answered (RecordStatement W)
    (RecordStatement.Answer D N) ε)) : changes (tr ++ tr') = changes tr ++ changes tr' :=
  List.flatMap_append

theorem Schema.react_of_step [DecidableEq ι] {S : Schema D W ε} {i : ι} {q : RecordStatement W}
    {s t : Records D ι} {r : Except ε (q.Answer D N)} (h : S.step i q s r t) :
    S.react q s.db r t.db := by
  cases q with
  | look =>
    rcases h with ⟨rfl, rfl⟩ | ⟨rfl, rfl⟩
    · exact ⟨.inl rfl, rfl⟩
    · exact ⟨.inr rfl, rfl⟩
  | draw =>
    obtain ⟨x, rfl, rfl⟩ := h
    exact ⟨⟨x, rfl⟩, rfl⟩
  | commit w =>
    refine h.imp (fun h => ?_) fun ⟨hr, ht⟩ => ⟨hr, congrArg Records.db ht⟩
    split at h
    · next hadmits =>
      rw [if_pos hadmits, h.2]
      exact ⟨h.1, rfl⟩
    · next hadmits =>
      rw [if_neg hadmits, h.2]
      exact ⟨h.1, rfl⟩
  | commitIf w =>
    refine h.imp (fun h => ?_) fun ⟨hr, ht⟩ => ⟨hr, congrArg Records.db ht⟩
    split at h
    · next hmet =>
      rw [if_pos hmet]
      split at h
      · next hadmits =>
        rw [if_pos hadmits, h.2]
        exact ⟨h.1, rfl⟩
      · next hadmits =>
        rw [if_neg hadmits, h.2]
        exact ⟨h.1, rfl⟩
    · next hmet =>
      rw [if_neg hmet, h.2]
      exact ⟨h.1, rfl⟩
  | rollback =>
    obtain ⟨rfl, rfl⟩ := h
    exact ⟨rfl, rfl⟩

/-! ## Programs -/

/-- The program ends in `Q`. -/
def Ends (S : Schema D W ε) (R : D → D → Prop) :
    RecordProg D W N ε α → (Except ε α → List W → D → Prop) → List W → D → Prop
  | .ret a, Q, ws, d => Q (.ok a) ws d
  | .raise e, Q, ws, d => Q (.error e) ws d
  | .call q k, Q, ws, d =>
      ∀ d', R d d' → S.admits d' = true → ∀ r d'', S.react q d' r d'' →
        Ends S R (k r) Q (ws ++ q.committed r) d''

section

variable {S : Schema D W ε} {R : D → D → Prop} {p : RecordProg D W N ε α}
  {Q Q' : Except ε α → List W → D → Prop} {ws : List W} {d : D}

theorem ends_mono (h : Ends S R p Q ws d) (hQ : ∀ x ws d, Q x ws d → Q' x ws d) :
    Ends S R p Q' ws d := by
  induction p generalizing ws d with
  | ret a => exact hQ _ _ _ h
  | raise e => exact hQ _ _ _ h
  | call q k ih => exact fun d' hd ha r d'' hr => ih r (h d' hd ha r d'' hr)

/-- What follows a result. -/
def Ends.after (S : Schema D W ε) (R : D → D → Prop) (f : α → RecordProg D W N ε β)
    (Q : Except ε β → List W → D → Prop) : Except ε α → List W → D → Prop
  | .ok a, ws, d => Ends S R (f a) Q ws d
  | .error e, ws, d => Q (.error e) ws d

/-- What follows an exception. -/
def Ends.handled (S : Schema D W ε) (R : D → D → Prop) (g : ε → RecordProg D W N ε α)
    (Q : Except ε α → List W → D → Prop) : Except ε α → List W → D → Prop
  | .ok a, ws, d => Q (.ok a) ws d
  | .error e, ws, d => Ends S R (g e) Q ws d

theorem ends_bind {f : α → RecordProg D W N ε β} {Q : Except ε β → List W → D → Prop}
    (h : Ends S R p (Ends.after S R f Q) ws d) : Ends S R (p >>= f) Q ws d := by
  induction p generalizing ws d with
  | ret a => exact h
  | raise e => exact h
  | call q k ih => exact fun d' hd ha r d'' hr => ih r (h d' hd ha r d'' hr)

theorem ends_tryCatch {g : ε → RecordProg D W N ε α} (h : Ends S R p (Ends.handled S R g Q) ws d) :
    Ends S R (tryCatch p g) Q ws d := by
  induction p generalizing ws d with
  | ret a => exact h
  | raise e => exact h
  | call q k ih => exact fun d' hd ha r d'' hr => ih r (h d' hd ha r d'' hr)

/-- An end in `P`, or with an exception in `E`. -/
def Ends.split (P : α → List W → D → Prop) (E : ε → List W → D → Prop) :
    Except ε α → List W → D → Prop
  | .ok a => P a
  | .error e => E e

variable {f : α → RecordProg D W N ε β} {Q : Except ε β → List W → D → Prop}

/-- A program and what follows it. -/
theorem ends_seq {P : α → List W → D → Prop} {E : ε → List W → D → Prop}
    (h : Ends S R p (Ends.split P E) ws d) (hP : ∀ a ws d, P a ws d → Ends S R (f a) Q ws d)
    (hE : ∀ e ws d, E e ws d → Q (.error e) ws d) : Ends S R (p >>= f) Q ws d := by
  refine ends_bind (ends_mono h fun x ws d hx => ?_)
  cases x with
  | ok a => exact hP a ws d hx
  | error e => exact hE e ws d hx

theorem ends_look {f : D → RecordProg D W N ε β}
    (h : ∀ d', R d d' → S.admits d' = true →
      Ends S R (f d') Q ws d' ∧ Q (.error S.failed) ws d') :
    Ends S R (RecordProg.look >>= f) Q ws d := by
  rintro d' hd ha r d'' ⟨rfl | rfl, rfl⟩
  · show Ends S R (f d'') Q (ws ++ []) d''
    rw [List.append_nil]
    exact (h d'' hd ha).1
  · show Q (.error S.failed) (ws ++ []) d''
    rw [List.append_nil]
    exact (h d'' hd ha).2

theorem ends_draw {f : N → RecordProg D W N ε β}
    (h : ∀ x d', R d d' → S.admits d' = true → Ends S R (f x) Q ws d') :
    Ends S R (RecordProg.draw >>= f) Q ws d := by
  rintro d' hd ha r d'' ⟨⟨x, rfl⟩, rfl⟩
  show Ends S R (f x) Q (ws ++ []) d''
  rw [List.append_nil]
  exact h x d'' hd ha

theorem ends_lift {x : Except ε α} (h : ∀ a, x = .ok a → Ends S R (f a) Q ws d)
    (he : ∀ e, x = .error e → Q (.error e) ws d) :
    Ends S R (RecordProg.lift x >>= f) Q ws d := by
  cases x with
  | ok a => exact h a rfl
  | error e => exact he e rfl

theorem ends_commit {w : W} {Q : Except ε Unit → List W → D → Prop}
    (h : ∀ d', R d d' → S.admits d' = true →
      (S.admits (S.apply w d') = true → Q (.ok ()) (ws ++ [w]) (S.apply w d')) ∧
      (S.admits (S.apply w d') = false → Q (.error S.refused) ws d') ∧
      Q (.error S.failed) ws d') :
    Ends S R (RecordProg.commit (N := N) w) Q ws d := by
  rintro d' hd ha r d'' (hr | ⟨rfl, rfl⟩)
  · split at hr
    · next hadmits =>
      obtain ⟨rfl, rfl⟩ := hr
      exact (h d' hd ha).1 hadmits
    · next hadmits =>
      obtain ⟨rfl, rfl⟩ := hr
      simpa [RecordStatement.committed, Ends] using (h d'' hd ha).2.1 (by simpa using hadmits)
  · simpa [RecordStatement.committed, Ends] using (h d'' hd ha).2.2

theorem ends_commitIf {w : W} {Q : Except ε Bool → List W → D → Prop}
    (h : ∀ d', R d d' → S.admits d' = true →
      (S.isMet w d' = true → S.admits (S.apply w d') = true →
        Q (.ok true) (ws ++ [w]) (S.apply w d')) ∧
      (S.isMet w d' = false → Q (.ok false) ws d') ∧
      Q (.error S.refused) ws d' ∧ Q (.error S.failed) ws d') :
    Ends S R (RecordProg.commitIf (N := N) w) Q ws d := by
  rintro d' hd ha r d'' (hr | ⟨rfl, rfl⟩)
  · split at hr
    · next hmet =>
      split at hr
      · next hadmits =>
        obtain ⟨rfl, rfl⟩ := hr
        exact (h d' hd ha).1 hmet hadmits
      · obtain ⟨rfl, rfl⟩ := hr
        simpa [RecordStatement.committed, Ends] using (h d'' hd ha).2.2.1
    · next hmet =>
      obtain ⟨rfl, rfl⟩ := hr
      simpa [RecordStatement.committed, Ends] using (h d'' hd ha).2.1 (by simpa using hmet)
  · simpa [RecordStatement.committed, Ends] using (h d'' hd ha).2.2.2

end

/-! ## Sessions and readings -/

/-- A request with its session, which answers what its operation does. -/
def answering (p : RecordProg D W N ε α) : RecordProg D W N ε α := do
  let a ← tryCatch p fun e => do
    RecordProg.rollback
    throw e
  RecordProg.rollback
  return a

section

variable {S : Schema D W ε} {R : D → D → Prop} {p : RecordProg D W N ε α}
  {Q : Except ε α → List W → D → Prop} {ws : List W} {d : D}

theorem ends_rollback {f : Unit → RecordProg D W N ε β} {Q : Except ε β → List W → D → Prop}
    (h : ∀ d', R d d' → S.admits d' = true → Ends S R (f ()) Q ws d') :
    Ends S R (RecordProg.rollback >>= f) Q ws d := by
  rintro d' hd ha r d'' ⟨rfl, rfl⟩
  show Ends S R (f ()) Q (ws ++ []) d''
  rw [List.append_nil]
  exact h d'' hd ha

/-- Whatever is said of an end. -/
theorem ends_true : Ends S R p (fun _ _ _ => True) ws d := by
  induction p generalizing ws d with
  | ret a => trivial
  | raise e => trivial
  | call q k ih => exact fun _ _ _ r _ _ => ih r

theorem ends_answering (hQ : ∀ x ws d d', R d d' → Q x ws d → Q x ws d')
    (h : Ends S R p Q ws d) : Ends S R (answering p) Q ws d := by
  refine ends_bind (ends_tryCatch (ends_mono h ?_))
  intro x ws d hx
  cases x with
  | ok a => exact ends_rollback (f := fun _ => pure a) fun d' hd _ => hQ _ _ _ _ hd hx
  | error e => exact ends_rollback (f := fun _ => throw e) fun d' hd _ => hQ _ _ _ _ hd hx

end

def RecordStatement.reads : RecordStatement W → Bool
  | .look | .draw => true
  | _ => false

/-- A program that only reads. -/
def Reads : RecordProg D W N ε α → Prop
  | .ret _ | .raise _ => True
  | .call q k => q.reads = true ∧ ∀ r, Reads (k r)

namespace Reads

variable {p : RecordProg D W N ε α}

theorem pure (a : α) : Reads (Pure.pure a : RecordProg D W N ε α) := trivial

theorem raise (e : ε) : Reads (throw e : RecordProg D W N ε α) := trivial

theorem bind {f : α → RecordProg D W N ε β} (hp : Reads p) (hf : ∀ a, Reads (f a)) :
    Reads (p >>= f) := by
  induction p with
  | ret a => exact hf a
  | raise e => trivial
  | call q k ih => exact ⟨hp.1, fun r => ih r (hp.2 r)⟩

theorem handle {g : ε → RecordProg D W N ε α} (hp : Reads p) (hg : ∀ e, Reads (g e)) :
    Reads (tryCatch p g) := by
  induction p with
  | ret a => trivial
  | raise e => exact hg e
  | call q k ih => exact ⟨hp.1, fun r => ih r (hp.2 r)⟩

theorem answer {q : RecordStatement W} (hq : q.reads = true) :
    Reads (Prog.send (A := RecordStatement.Answer D N) (ε := ε) q) := by
  refine ⟨hq, fun r => ?_⟩
  cases r <;> trivial

theorem look {f : D → RecordProg D W N ε β} (hf : ∀ d, Reads (f d)) :
    Reads (RecordProg.look >>= f) := bind (answer rfl) hf

theorem draw {f : N → RecordProg D W N ε β} (hf : ∀ x, Reads (f x)) :
    Reads (RecordProg.draw >>= f) := bind (answer rfl) hf

theorem lift (x : Except ε α) : Reads (RecordProg.lift x : RecordProg D W N ε α) := by
  cases x <;> trivial

/-- A check that raises, and what follows it. -/
theorem guard {c : Prop} [Decidable c] {x : Except ε Unit} {f : Unit → RecordProg D W N ε α}
    (h : Reads (f ())) : Reads (if c then RecordProg.lift x >>= f else f ()) := by
  split
  · exact bind (lift x) fun _ => h
  · exact h

/-- A reading keeps what was read before. -/
theorem vetted {S : Schema D W ε} {seen seen' : List D} (hp : Reads p) (hs : seen ⊆ seen') :
    Vetted S p (fun _ seen' => seen ⊆ seen') seen' := by
  induction p generalizing seen' with
  | ret a => exact hs
  | raise e => trivial
  | call q k ih =>
    cases q with
    | look =>
      exact ⟨fun d _ => ih _ (hp.2 _) (List.subset_cons_of_subset d hs), ih _ (hp.2 _) hs⟩
    | draw => exact fun x => ih _ (hp.2 _) hs
    | _ => cases hp.1

/-- What follows a reading begins with nothing more committed. -/
theorem ends {S : Schema D W ε} {R : D → D → Prop} {ws : List W} {d : D} (hrefl : ∀ d, R d d)
    (htrans : ∀ a b c, R a b → R b c → R a c) {Q : Except ε α → List W → D → Prop} (hp : Reads p)
    (ha : S.admits d = true)
    (hQ : ∀ x d', R d d' → S.admits d' = true → Q x ws d') : Ends S R p Q ws d := by
  induction p generalizing d with
  | ret a => exact hQ _ d (hrefl d) ha
  | raise e => exact hQ _ d (hrefl d) ha
  | call q k ih =>
    intro d' hd ha' r d'' hr
    have hcommitted : q.committed r = [] := by
      cases q with
      | look | draw => rfl
      | _ => cases hp.1
    have hsame : d'' = d' := by
      cases q with
      | look | draw => exact hr.2
      | _ => cases hp.1
    subst hsame
    rw [hcommitted, List.append_nil]
    exact ih r (hp.2 r) ha' fun x d' hd' => hQ x d' (htrans _ _ _ hd hd')

/-- What a reading raises, where a failure of the database is no surprise. -/
theorem raises {S : Schema D W ε} {R : D → D → Prop} {ws : List W} {d d₀ : D} {F : ε → Prop}
    (htrans : ∀ a b c, R a b → R b c → R a c) (hp : Reads p) (hF : Raises F p)
    (hfailed : F S.failed) (hd : R d₀ d) :
    Ends S R p (Ends.split (fun _ ws' d' => ws = ws' ∧ R d₀ d')
      fun e ws' d' => F e ∧ ws = ws' ∧ R d₀ d') ws d := by
  induction p generalizing d with
  | ret a => exact ⟨rfl, hd⟩
  | raise e => exact ⟨hF, rfl, hd⟩
  | call q k ih =>
    intro d' hdd' _ r d'' hr
    have hanswer : d'' = d' ∧ q.committed r = [] ∧ ∀ e, r = .error e → F e := by
      cases q with
      | look =>
        refine ⟨hr.2, rfl, fun e he => ?_⟩
        rcases hr.1 with h | h
        · rw [h] at he
          cases he
        · rw [h] at he
          cases he
          exact hfailed
      | draw =>
        obtain ⟨⟨x, rfl⟩, hsame⟩ := hr
        exact ⟨hsame, rfl, fun e he => (by cases he)⟩
      | _ => cases hp.1
    obtain ⟨rfl, hcommitted, hfault⟩ := hanswer
    rw [hcommitted, List.append_nil]
    exact ih r (hp.2 r) (hF r hfault) (htrans _ _ _ hd hdd')

end Reads

section

variable {F G : ε → Prop}

theorem raises_look {f : D → RecordProg D W N ε α} (h : ∀ d, Raises F (f d)) :
    Raises F (RecordProg.look >>= f) := raises_bind raises_send h

theorem raises_handle {p : RecordProg D W N ε α} {g : ε → RecordProg D W N ε α}
    (hFG : ∀ e, F e → G e) (hp : Raises G p) (hg : ∀ e, G e → Raises F (g e)) :
    Raises F (tryCatch p g) := by
  induction p with
  | ret a => trivial
  | raise e => exact hg e hp
  | call q k ih => exact fun r hr => ih r (hp r fun e he => hFG e (hr e he))

end

/-! ## An operation alone -/

section

variable {S : Schema D W ε} {Q : Except ε α → List W → D → Prop} {ws : List W} {d : D}

theorem alone_look {f : D → RecordProg D W N ε α}
    (h : S.admits d = true → Ends S Eq (f d) Q ws d) (he : Q (.error S.failed) ws d) :
    Ends S Eq (RecordProg.look >>= f) Q ws d := by
  refine ends_look ?_
  rintro d' rfl ha
  exact ⟨h ha, he⟩

theorem alone_draw {f : N → RecordProg D W N ε α} (h : ∀ x, Ends S Eq (f x) Q ws d) :
    Ends S Eq (RecordProg.draw >>= f) Q ws d := by
  refine ends_draw ?_
  rintro x d' rfl _
  exact h x

end

/-- An operation that is run alone ends in `Q`. -/
theorem Exec.ends [DecidableEq ι] {S : Schema D W ε} {i : ι} {p : RecordProg D W N ε α}
    {s t : Records D ι} {x : Except ε α} {Q : Except ε α → List W → D → Prop}
    (h : Exec (S.machine N ι) i p s x t) (ws : List W) (ha : S.admits s.db = true)
    (hp : Ends S Eq p Q ws s.db) : ∃ ws', Q x ws' t.db := by
  induction h generalizing ws with
  | ret a s => exact ⟨ws, hp⟩
  | raise e s => exact ⟨ws, hp⟩
  | call hstep _ ih =>
    refine ih _ ?_ (hp _ rfl ha _ _ (Schema.react_of_step hstep))
    exact Schema.admits_of_step hstep ha

/-! ## Runs -/

section

variable {S : Schema D W ε} {R : D → D → Prop}

/-- Operations among which the database only moves on along `R`. -/
def Schema.growing (S : Schema D W ε) (N ι : Type) [DecidableEq ι] {R : D → D → Prop}
    (hrefl : ∀ d, R d d) (htrans : ∀ a b c, R a b → R b c → R a c)
    (happly : ∀ w d, R d (S.apply w d)) : Logic (S.machine N ι) where
  inv s := S.admits s.db = true
  pre _ _ _ := True
  rely _ s t := R s.db t.db
  idle _ _ := True
  inv_step hi _ hstep := Schema.admits_of_step hstep hi
  rely_refl _ s := hrefl s.db
  rely_trans h h' := htrans _ _ _ h h'
  rely_step _ _ _ hstep := Schema.grows_of_step hrefl happly hstep
  idle_rely _ _ := trivial

variable [DecidableEq ι]

/-- A program that ends in `Q` keeps it with its trace. -/
theorem wp_of_ends (hrefl : ∀ d, R d d) (htrans : ∀ a b c, R a b → R b c → R a c)
    (happly : ∀ w d, R d (S.apply w d)) {i : ι} {p : RecordProg D W N ε α}
    {Q : Except ε α → List W → D → Prop}
    {s : Reported (RecordStatement W) (RecordStatement.Answer D N) ε (Records D ι) ι ρ}
    (h : Ends S R p Q (changes (s.trace i)) s.store.db) :
    wp ((S.growing N ι hrefl htrans happly).tracing ρ) i p
      (fun a t => Q (.ok a) (changes (t.trace i)) t.store.db)
      (fun e t => Q (.error e) (changes (t.trace i)) t.store.db) s := by
  induction p generalizing s with
  | ret a => exact h
  | raise e => exact h
  | call q k ih =>
    intro t hst ht
    refine ⟨trivial, ?_⟩
    rintro r _ ⟨u, hstep, rfl⟩
    refine ih r ?_
    have hsent : changes ((t.sent i q r u).trace i) = changes (s.trace i) ++ q.committed r := by
      rw [Reported.sent_trace_self, hst.2, changes_append]
      exact congrArg (changes (s.trace i) ++ ·) (List.append_nil _)
    rw [hsent]
    exact h t.store.db hst.1 ht r u.db (Schema.react_of_step hstep)

/-- What is left of a program that reports its end. -/
theorem erased_reported {Q : Type} {A : Q → Type} {mk : Except ε α → ρ} (p : Prog Q A ε α) :
    (p.reported mk).erased = tryCatch (p >>= fun _ => pure ()) fun _ => pure () := by
  induction p with
  | ret a => rfl
  | raise e => rfl
  | call q k ih => exact congrArg (Prog.call q) (funext ih)

/-- A request that commits what it has checked, with its report. -/
theorem checks_reported {S : Schema D W ε} {p : RecordProg D W N ε α} {mk : Except ε α → ρ}
    (h : Checked S p (fun _ _ => True) (fun _ _ => True) []) :
    Checks S ((answering p).reported mk).erased := by
  rw [erased_reported]
  refine checked_tryCatch (checked_bind (checked_bind (checked_tryCatch (checked_mono h ?_ ?_))))
  · intro a seen _
    exact rfl
  · intro e seen _
    exact rfl

/-- **Every report of a run is as its program ends.** `P` is what is said of a report, and of what
its operation has committed; the database may move on. -/
theorem Reach.reports {P : ρ → List W → D → Prop} (hrefl : ∀ d, R d d)
    (htrans : ∀ a b c, R a b → R b c → R a c) (happly : ∀ w d, R d (S.apply w d))
    (hP : ∀ x ws d d', R d d' → P x ws d → P x ws d')
    {starts : Set (Prog (RecordStatement W ⊕ ρ) (ReportAnswer (RecordStatement.Answer D N) ρ) ε Unit)}
    (hs : ∀ p ∈ starts, ∃ (α : Type) (p' : RecordProg D W N ε α) (mk : Except ε α → ρ),
      p = p'.reported mk ∧ ∀ d, S.admits d = true → Ends S R p' (fun x => P (mk x)) [] d)
    {init : Set D} (hinit : ∀ d ∈ init, S.admits d = true)
    {w : World (RecordStatement W ⊕ ρ) (ReportAnswer (RecordStatement.Answer D N) ρ) ε
      (Reported (RecordStatement W) (RecordStatement.Answer D N) ε (Records D ι) ι ρ) ι}
    (h : Reach ((S.machine N ι).reporting ρ) starts
      (fun s => ∃ d ∈ init, s = Reported.init (Records.init d)) w) :
    S.admits w.store.store.db = true ∧
      ∀ e ∈ w.store.reports, P e.1 (changes e.2) w.store.store.db := by
  have hstable : Stable (S.growing N ι hrefl htrans happly)
      (fun (x : ρ) tr (s : Records D ι) => P x (changes tr) s.db) :=
    ⟨fun _ _ hstep => hP _ _ _ _ (Schema.grows_of_step hrefl happly hstep),
      fun hrely => hP _ _ _ _ hrely⟩
  have hkeeps : ∀ p ∈ starts, (Logic.reporting hstable).Keeps p := by
    intro p hp
    obtain ⟨α, p', mk, rfl, hends⟩ := hs p hp
    refine keeps_reported hstable fun i s hi hidle => ?_
    have hw := wp_of_ends (ρ := ρ) hrefl htrans happly (i := i) (p := p')
      (Q := fun x => P (mk x)) (s := s) (by
        rw [hidle.2]
        exact hends s.store.db hi)
    exact wp_mono hw (fun _ _ h => ⟨trivial, h⟩) (fun _ _ h => ⟨trivial, h⟩)
  have hinv := (Reach.sound hkeeps ?_ h).1
  · exact hinv
  · rintro s ⟨d, hd, rfl⟩
    exact ⟨⟨hinit d hd, fun e he => (by cases he)⟩, fun i => ⟨trivial, rfl⟩⟩

end

end Program
