import PayReality.Lib.Records

/-!
# An operation alone

`Alone M i p R s`: run from `s` by `i` with nothing in between, the program ends in `R` of its result
and of the state. A state that the others leave alone is followed step by step.

What a program over records has checked is still so where it commits (`Checked.alone`).
-/

namespace Program

variable {Q : Type} {A : Q → Type} {ε σ ι α β : Type}

/-- Run alone, the program ends in `R`. -/
def Alone (M : Machine Q A ε σ ι) (i : ι) : Prog Q A ε α → (Except ε α → σ → Prop) → σ → Prop
  | .ret a, R, s => R (.ok a) s
  | .raise e, R, s => R (.error e) s
  | .call q k, R, s => ∀ r t, M.step i q s r t → Alone M i (k r) R t

variable {M : Machine Q A ε σ ι} {i : ι} {p : Prog Q A ε α} {R R' : Except ε α → σ → Prop} {s t : σ}

theorem Exec.alone {x : Except ε α} (h : Exec M i p s x t) (hp : Alone M i p R s) : R x t := by
  induction h with
  | ret a s => exact hp
  | raise e s => exact hp
  | call hstep _ ih => exact ih (hp _ _ hstep)

theorem alone_mono (h : Alone M i p R s) (hR : ∀ x t, R x t → R' x t) : Alone M i p R' s := by
  induction p generalizing s with
  | ret a => exact hR _ _ h
  | raise e => exact hR _ _ h
  | call q k ih => exact fun r t hstep => ih r (h r t hstep)

/-- A program and what follows it. -/
theorem alone_bind {f : α → Prog Q A ε β} {R : Except ε β → σ → Prop} {P : α → σ → Prop}
    (h : Alone M i p (fun x t => (∀ a, x = .ok a → P a t) ∧ ∀ e, x = .error e → R (.error e) t) s)
    (hf : ∀ a t, P a t → Alone M i (f a) R t) : Alone M i (p >>= f) R s := by
  induction p generalizing s with
  | ret a => exact hf a s (h.1 a rfl)
  | raise e => exact h.2 e rfl
  | call q k ih => exact fun r t hstep => ih r (h r t hstep)

theorem alone_tryCatch {g : ε → Prog Q A ε α} {E : ε → σ → Prop}
    (h : Alone M i p (fun x t => (∀ a, x = .ok a → R (.ok a) t) ∧ ∀ e, x = .error e → E e t) s)
    (hg : ∀ e t, E e t → Alone M i (g e) R t) : Alone M i (tryCatch p g) R s := by
  induction p generalizing s with
  | ret a => exact h.1 a rfl
  | raise e => exact hg e s (h.2 e rfl)
  | call q k ih => exact fun r t hstep => ih r (h r t hstep)

/-- A program that sends only what keeps `I`, and what follows it. -/
theorem alone_keeps {P : Q → Prop} {I : σ → Prop}
    (h : Sends P (fun _ _ => True) p fun _ => True)
    (hstep : ∀ q s r t, P q → M.step i q s r t → I s → I t) (hs : I s) :
    Alone M i p (fun _ t => I t) s := by
  induction p generalizing s with
  | ret a => exact hs
  | raise e => exact hs
  | call q k ih => exact fun r t hqt => ih r (h.2 r trivial) (hstep q s r t h.1 hqt hs)

/-! ## Records -/

section

variable {D W N : Type} [DecidableEq ι] {S : Schema D W ε} {J : D → Prop}

/-- Alone, a program commits only changes whose checks hold where they are committed. -/
theorem Checked.alone (hJ : ∀ w d, J d → S.admits d = true → (∀ c ∈ S.checks w, c d = true) →
      S.admits (S.apply w d) = true → J (S.apply w d))
    {p : RecordProg D W N ε α} {R : α → List D → Prop} {E : ε → List D → Prop} {s : Records D ι}
    (h : Checked S p R E (s.seen i)) (hseen : ∀ d ∈ s.seen i, d = s.db)
    (hadmits : S.admits s.db = true) (hs : J s.db) :
    Alone (S.machine N ι) i p (fun _ t => J t.db) s := by
  induction p generalizing s with
  | ret a => exact hs
  | raise e => exact hs
  | call q k ih =>
    -- what is committed is checked of the database of `s`, and nothing is remembered of it
    have hwrite : ∀ w, S.supported w (s.seen i) → S.admits (S.apply w s.db) = true →
        ∀ r, Checked S (k r) R E [] →
          Alone (S.machine N ι) i (k r) (fun _ t => J t.db) (s.write i (S.apply w s.db)) := by
      intro w hw hadmitted r hk
      refine ih r (s := s.write i (S.apply w s.db)) ?_ (fun d hd => ?_) hadmitted ?_
      · rw [Records.write_seen]
        exact hk
      · rw [Records.write_seen] at hd
        cases hd
      · refine hJ w s.db hs hadmits (fun c hc => ?_) hadmitted
        obtain ⟨d, hd, htrue⟩ := hw c hc
        exact hseen d hd ▸ htrue
    have hforget : ∀ r, Checked S (k r) R E [] →
        Alone (S.machine N ι) i (k r) (fun _ t => J t.db) (s.forget i) := by
      intro r hk
      refine ih r (s := s.forget i) ?_ (fun d hd => ?_) hadmits hs
      · rw [Records.forget_seen]
        exact hk
      · rw [Records.forget_seen] at hd
        cases hd
    cases q with
    | look =>
      rintro r t (⟨rfl, rfl⟩ | ⟨rfl, rfl⟩)
      · refine ih _ (s := s.see i) ?_ (fun d hd => ?_) hadmits hs
        · rw [Records.see_seen]
          exact h.1 s.db hadmits
        · rw [Records.see_seen] at hd
          exact (List.mem_cons.1 hd).elim id (hseen d)
      · exact ih _ h.2 hseen hadmits hs
    | draw =>
      rintro r t ⟨x, rfl, rfl⟩
      exact ih _ (h x) hseen hadmits hs
    | commit w =>
      rintro r t (hr | ⟨rfl, rfl⟩)
      · split at hr
        · next hadmitted =>
          obtain ⟨rfl, rfl⟩ := hr
          exact hwrite w h.1 hadmitted _ h.2.1
        · obtain ⟨rfl, rfl⟩ := hr
          exact ih _ h.2.2.1 hseen hadmits hs
      · exact ih _ h.2.2.2 hseen hadmits hs
    | commitIf w =>
      rintro r t (hr | ⟨rfl, rfl⟩)
      · split at hr
        · split at hr
          · next hadmitted =>
            obtain ⟨rfl, rfl⟩ := hr
            exact hwrite w h.1 hadmitted _ (h.2.1 true)
          · obtain ⟨rfl, rfl⟩ := hr
            exact ih _ h.2.2.1 hseen hadmits hs
        · obtain ⟨rfl, rfl⟩ := hr
          exact hforget _ (h.2.1 false)
      · exact ih _ h.2.2.2 hseen hadmits hs
    | rollback =>
      rintro r t ⟨rfl, rfl⟩
      exact hforget _ h

end

/-! ### Without a failure -/

section

variable {D W N : Type} {S : Schema D W ε} {x : N}

/-- What the program does alone when no statement fails and `x` is drawn. -/
def Schema.perform (S : Schema D W ε) (x : N) : RecordProg D W N ε α → D → Except ε α × D
  | .ret a, d => (.ok a, d)
  | .raise e, d => (.error e, d)
  | .call .look k, d => S.perform x (k (.ok d)) d
  | .call .draw k, d => S.perform x (k (.ok x)) d
  | .call (.commit w) k, d =>
    if S.admits (S.apply w d) then S.perform x (k (.ok ())) (S.apply w d)
    else S.perform x (k (.error S.refused)) d
  | .call (.commitIf w) k, d =>
    if S.isMet w d then
      if S.admits (S.apply w d) then S.perform x (k (.ok true)) (S.apply w d)
      else S.perform x (k (.error S.refused)) d
    else S.perform x (k (.ok false)) d
  | .call .rollback k, d => S.perform x (k (.ok ())) d

/-- What follows a program that returns. -/
theorem perform_bind {p : RecordProg D W N ε α} {f : α → RecordProg D W N ε β} {d d' : D} {a : α}
    (h : S.perform x p d = (.ok a, d')) : S.perform x (p >>= f) d = S.perform x (f a) d' := by
  induction p generalizing d with
  | ret b =>
    cases h
    rfl
  | raise e => cases h
  | call q k ih =>
    cases q with
    | look | draw | rollback => exact ih _ h
    | commit w =>
      show (if _ then _ else _) = _
      unfold Schema.perform at h
      split at h
      · next hadmits =>
        rw [if_pos hadmits]
        exact ih _ h
      · next hadmits =>
        rw [if_neg hadmits]
        exact ih _ h
    | commitIf w =>
      show (if _ then _ else _) = _
      unfold Schema.perform at h
      split at h
      · next hmet =>
        rw [if_pos hmet]
        split at h
        · next hadmits =>
          rw [if_pos hadmits]
          exact ih _ h
        · next hadmits =>
          rw [if_neg hadmits]
          exact ih _ h
      · next hmet =>
        rw [if_neg hmet]
        exact ih _ h

/-- Nothing follows a program that raises. -/
theorem perform_bind_error {p : RecordProg D W N ε α} {f : α → RecordProg D W N ε β} {d d' : D} {e : ε}
    (h : S.perform x p d = (.error e, d')) : S.perform x (p >>= f) d = (.error e, d') := by
  induction p generalizing d with
  | ret b => cases h
  | raise e =>
    cases h
    rfl
  | call q k ih =>
    cases q with
    | look | draw | rollback => exact ih _ h
    | commit w =>
      show (if _ then _ else _) = _
      unfold Schema.perform at h
      split at h
      · next hadmits =>
        rw [if_pos hadmits]
        exact ih _ h
      · next hadmits =>
        rw [if_neg hadmits]
        exact ih _ h
    | commitIf w =>
      show (if _ then _ else _) = _
      unfold Schema.perform at h
      split at h
      · next hmet =>
        rw [if_pos hmet]
        split at h
        · next hadmits =>
          rw [if_pos hadmits]
          exact ih _ h
        · next hadmits =>
          rw [if_neg hadmits]
          exact ih _ h
      · next hmet =>
        rw [if_neg hmet]
        exact ih _ h

section

variable {f : D → RecordProg D W N ε β} {g : N → RecordProg D W N ε β} {d : D}

theorem perform_look : S.perform x (RecordProg.look >>= f) d = S.perform x (f d) d := rfl

theorem perform_draw : S.perform x (RecordProg.draw >>= g) d = S.perform x (g x) d := rfl

theorem perform_commit {w : W} (h : S.admits (S.apply w d) = true) :
    S.perform x (RecordProg.commit w) d = (.ok (), S.apply w d) := if_pos h

theorem perform_tryCatch {p : RecordProg D W N ε α} {h : ε → RecordProg D W N ε α} {d' : D} {a : α}
    (hp : S.perform x p d = (.ok a, d')) : S.perform x (tryCatch p h) d = (.ok a, d') := by
  induction p generalizing d with
  | ret b => exact hp
  | raise e => cases hp
  | call q k ih =>
    cases q with
    | look | draw | rollback => exact ih _ hp
    | commit w =>
      show (if _ then _ else _) = _
      unfold Schema.perform at hp
      split at hp
      · next hadmits =>
        rw [if_pos hadmits]
        exact ih _ hp
      · next hadmits =>
        rw [if_neg hadmits]
        exact ih _ hp
    | commitIf w =>
      show (if _ then _ else _) = _
      unfold Schema.perform at hp
      split at hp
      · next hmet =>
        rw [if_pos hmet]
        split at hp
        · next hadmits =>
          rw [if_pos hadmits]
          exact ih _ hp
        · next hadmits =>
          rw [if_neg hadmits]
          exact ih _ hp
      · next hmet =>
        rw [if_neg hmet]
        exact ih _ hp

end

/-- It can do so. -/
theorem exec_perform [DecidableEq ι] (i : ι) (p : RecordProg D W N ε α) (s : Records D ι) :
    ∃ t, Exec (S.machine N ι) i p s (S.perform x p s.db).1 t ∧ t.db = (S.perform x p s.db).2 := by
  induction p generalizing s with
  | ret a => exact ⟨s, .ret a s, rfl⟩
  | raise e => exact ⟨s, .raise e s, rfl⟩
  | call q k ih =>
    cases q with
    | look =>
      obtain ⟨t, hexec, ht⟩ := ih (.ok s.db) (s.see i)
      exact ⟨t, .call (.inl ⟨rfl, rfl⟩) hexec, ht⟩
    | draw =>
      obtain ⟨t, hexec, ht⟩ := ih (.ok x) s
      exact ⟨t, .call ⟨x, rfl, rfl⟩ hexec, ht⟩
    | commit w =>
      unfold Schema.perform
      split
      · next hadmits =>
        obtain ⟨t, hexec, ht⟩ := ih (.ok ()) (s.write i (S.apply w s.db))
        refine ⟨t, .call (.inl ?_) hexec, ht⟩
        rw [if_pos hadmits]
        exact ⟨rfl, rfl⟩
      · next hadmits =>
        obtain ⟨t, hexec, ht⟩ := ih (.error S.refused) s
        refine ⟨t, .call (.inl ?_) hexec, ht⟩
        rw [if_neg hadmits]
        exact ⟨rfl, rfl⟩
    | commitIf w =>
      unfold Schema.perform
      split
      · next hmet =>
        split
        · next hadmits =>
          obtain ⟨t, hexec, ht⟩ := ih (.ok true) (s.write i (S.apply w s.db))
          refine ⟨t, .call (.inl ?_) hexec, ht⟩
          rw [if_pos hmet, if_pos hadmits]
          exact ⟨rfl, rfl⟩
        · next hadmits =>
          obtain ⟨t, hexec, ht⟩ := ih (.error S.refused) s
          refine ⟨t, .call (.inl ?_) hexec, ht⟩
          rw [if_pos hmet, if_neg hadmits]
          exact ⟨rfl, rfl⟩
      · next hmet =>
        obtain ⟨t, hexec, ht⟩ := ih (.ok false) (s.forget i)
        refine ⟨t, .call (.inl ?_) hexec, ht⟩
        rw [if_neg hmet]
        exact ⟨rfl, rfl⟩
    | rollback =>
      obtain ⟨t, hexec, ht⟩ := ih (.ok ()) (s.forget i)
      exact ⟨t, .call ⟨rfl, rfl⟩ hexec, ht⟩

end

end Program
