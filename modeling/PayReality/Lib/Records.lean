import Mathlib.Data.List.Basic
import PayReality.Lib.Program

/-!
# Records that are read, checked, and then written

An operation reads what it needs, statement by statement, checks it, and writes with its commit.
Nothing holds what was only read, so what was checked may be over when the operation commits.

* `Schema`: what a commit changes, what the constraints of the database admit, and what an operation
  has to have checked for a change.
* `Schema.machine`: every statement may fail. The store remembers what every operation has read since
  its transaction began (`seen`), and the databases that there were (`past`).
* `Checked`: a program that commits only what it has checked; `Schema.logic` is its contract.
* `Schema.allows`: a condition on the steps of a run.

**Main result** `Reach.records`: an invariant that the checked and allowed changes keep holds in a
whole run, and every earlier database is related to the present one as those changes relate them.
-/

namespace Program

/-- A database `D` and its changes `W`. -/
structure Schema (D W ε : Type) where
  apply : W → D → D
  /-- No constraint refuses the database. -/
  admits : D → Bool
  /-- What is checked for a change. -/
  checks : W → List (D → Bool)
  /-- The condition of an `UPDATE`. -/
  isMet : W → D → Bool := fun _ _ => true
  refused : ε
  failed : ε

/-- What an operation sends; `draw` makes an id. -/
inductive RecordStatement (W : Type) where
  | look
  | draw
  | commit (w : W)
  /-- An `UPDATE` and its commit: whether there was a row that meets the condition. -/
  | commitIf (w : W)
  | rollback

namespace RecordStatement

abbrev Answer (D N : Type) {W : Type} : RecordStatement W → Type
  | .look => D
  | .draw => N
  | .commitIf _ => Bool
  | _ => Unit

/-- What it changes. -/
def change? {W : Type} : RecordStatement W → Option W
  | .commit w | .commitIf w => some w
  | _ => none

end RecordStatement

/-- The committed database, with what no operation reads. -/
structure Records (D ι : Type) where
  db : D
  seen : ι → List D
  past : List D

variable {D W N ε ι α β : Type}

/-- Nothing has happened. -/
def Records.init (d : D) : Records D ι := ⟨d, fun _ => [], []⟩

/-- A program over records. -/
abbrev RecordProg (D W N ε : Type) := Prog (RecordStatement W) (RecordStatement.Answer D N) ε

namespace RecordProg

def look : RecordProg D W N ε D := Prog.send RecordStatement.look

def draw : RecordProg D W N ε N := Prog.send RecordStatement.draw

def commit (w : W) : RecordProg D W N ε Unit := Prog.send (RecordStatement.commit w)

def commitIf (w : W) : RecordProg D W N ε Bool := Prog.send (RecordStatement.commitIf w)

def rollback : RecordProg D W N ε Unit := Prog.send RecordStatement.rollback

/-- A computation that sends nothing. -/
def lift : Except ε α → RecordProg D W N ε α
  | .ok a => pure a
  | .error e => throw e

end RecordProg

section

variable [DecidableEq ι]

namespace Records

def see (s : Records D ι) (i : ι) : Records D ι :=
  { s with seen := Function.update s.seen i (s.db :: s.seen i) }

def forget (s : Records D ι) (i : ι) : Records D ι :=
  { s with seen := Function.update s.seen i [] }

def write (s : Records D ι) (i : ι) (d : D) : Records D ι :=
  { s.forget i with db := d, past := s.past ++ [s.db] }

variable (s : Records D ι) (i : ι) (d : D)

@[simp] theorem see_seen : (s.see i).seen i = s.db :: s.seen i := Function.update_self ..

@[simp] theorem forget_seen : (s.forget i).seen i = [] := Function.update_self ..

@[simp] theorem write_seen : (s.write i d).seen i = [] := Function.update_self ..

end Records

namespace Schema

variable (S : Schema D W ε)

def step (i : ι) : (q : RecordStatement W) → Records D ι → Except ε (q.Answer D N) →
    Records D ι → Prop
  | .look, s, r, t => r = .ok s.db ∧ t = s.see i ∨ r = .error S.failed ∧ t = s
  | .draw, s, r, t => ∃ x, r = .ok x ∧ t = s
  | .commit w, s, r, t =>
      (if S.admits (S.apply w s.db) then r = .ok () ∧ t = s.write i (S.apply w s.db)
        else r = .error S.refused ∧ t = s) ∨ r = .error S.failed ∧ t = s
  | .commitIf w, s, r, t =>
      (if S.isMet w s.db then
        if S.admits (S.apply w s.db) then r = .ok true ∧ t = s.write i (S.apply w s.db)
        else r = .error S.refused ∧ t = s
      else r = .ok false ∧ t = s.forget i) ∨ r = .error S.failed ∧ t = s
  | .rollback, s, r, t => r = .ok () ∧ t = s.forget i

/-- What a step leaves of the database and of what was seen. -/
inductive Effect (i : ι) (q : RecordStatement W) (s t : Records D ι) : Prop where
  | unchanged (h : t = s)
  | seen (h : t = s.see i)
  | forgotten (h : t = s.forget i)
  | changed (w : W) (hq : q.change? = some w) (hadmits : S.admits (S.apply w s.db) = true)
      (h : t = s.write i (S.apply w s.db))

variable {S} in
theorem step_effect {i : ι} {q : RecordStatement W} {s t : Records D ι}
    {r : Except ε (q.Answer D N)} (h : S.step i q s r t) : S.Effect i q s t := by
  cases q with
  | look =>
    rcases h with ⟨-, rfl⟩ | ⟨-, rfl⟩
    · exact .seen rfl
    · exact .unchanged rfl
  | draw =>
    obtain ⟨_, -, rfl⟩ := h
    exact .unchanged rfl
  | commit w =>
    rcases h with h | ⟨-, rfl⟩
    · split at h
      · next hadmits => exact .changed w rfl hadmits h.2
      · exact .unchanged h.2
    · exact .unchanged rfl
  | commitIf w =>
    rcases h with h | ⟨-, rfl⟩
    · split at h
      · split at h
        · next hadmits => exact .changed w rfl hadmits h.2
        · exact .unchanged h.2
      · exact .forgotten h.2
    · exact .unchanged rfl
  | rollback => exact .forgotten h.2

variable {S} in
theorem admits_of_step {i : ι} {q : RecordStatement W} {s t : Records D ι}
    {r : Except ε (q.Answer D N)} (h : S.step i q s r t) (hs : S.admits s.db = true) :
    S.admits t.db = true := by
  cases step_effect h with
  | unchanged h => exact h ▸ hs
  | seen h => exact h ▸ hs
  | forgotten h => exact h ▸ hs
  | changed w _ hadmits h => exact h ▸ hadmits

variable {S} in
/-- What fails changes nothing. -/
theorem db_of_error {i : ι} {q : RecordStatement W} {s t : Records D ι} {e : ε}
    (h : S.step i q s (.error e : Except ε (q.Answer D N)) t) : t.db = s.db := by
  cases q with
  | look =>
    rcases h with ⟨he, -⟩ | ⟨-, rfl⟩
    · cases he
    · rfl
  | draw =>
    obtain ⟨_, he, -⟩ := h
    cases he
  | commit w =>
    rcases h with h | ⟨-, rfl⟩
    · split at h
      · cases h.1
      · rw [h.2]
    · rfl
  | commitIf w =>
    rcases h with h | ⟨-, rfl⟩
    · split at h
      · split at h
        · cases h.1
        · rw [h.2]
      · cases h.1
    · rfl
  | rollback => cases h.1

variable {S} in
/-- A statement that is no commit changes nothing. -/
theorem db_of_no_change {i : ι} {q : RecordStatement W} {s t : Records D ι}
    {r : Except ε (q.Answer D N)} (hq : q.change? = none) (h : S.step i q s r t) : t.db = s.db := by
  cases step_effect h with
  | unchanged h => rw [h]
  | seen h =>
    rw [h]
    rfl
  | forgotten h =>
    rw [h]
    rfl
  | changed w hw _ _ =>
    rw [hq] at hw
    cases hw

variable {S} in
theorem db_of_commit {i : ι} {w : W} {s t : Records D ι} {u : Unit}
    (h : S.step (N := N) i (.commit w) s (.ok u) t) : t.db = S.apply w s.db := by
  rcases h with h | ⟨he, -⟩
  · split at h
    · rw [h.2]
      rfl
    · cases h.1
  · cases he

variable {S} in
/-- Where every change is along `R`, every step is. -/
theorem grows_of_step {i : ι} {q : RecordStatement W} {s t : Records D ι}
    {r : Except ε (q.Answer D N)} {R : D → D → Prop} (hrefl : ∀ d, R d d)
    (happly : ∀ w d, R d (S.apply w d)) (h : S.step i q s r t) : R s.db t.db := by
  cases step_effect h with
  | unchanged h => exact h ▸ hrefl _
  | seen h => exact h ▸ hrefl _
  | forgotten h => exact h ▸ hrefl _
  | changed w _ _ h => exact h ▸ happly w s.db

/-- The machine of many operations. -/
def machine (N ι : Type) [DecidableEq ι] :
    Machine (RecordStatement W) (RecordStatement.Answer D N) ε (Records D ι) ι where
  step i q s r t := S.step i q s r t

/-- Everything that a change rests on is true of some database that was read. -/
def supported (w : W) (seen : List D) : Prop := ∀ c ∈ S.checks w, ∃ d ∈ seen, c d = true

/-- A change may be committed by an operation that has checked it. -/
def logic (N ι : Type) [DecidableEq ι] : Logic (S.machine N ι) where
  inv s := S.admits s.db = true
  pre i q s := ∀ w, q.change? = some w → S.supported w (s.seen i)
  rely i s t := t.seen i = s.seen i
  idle i s := s.seen i = []
  inv_step hi _ hstep := admits_of_step hstep hi
  rely_refl _ _ := rfl
  rely_trans h h' := h'.trans h
  rely_step := by
    intro i j q s r t hij _ _ hstep
    have hne : j ≠ i := hij.symm
    cases step_effect hstep with
    | unchanged h => rw [h]
    | seen h =>
      rw [h]
      exact Function.update_of_ne hne _ _
    | forgotten h =>
      rw [h]
      exact Function.update_of_ne hne _ _
    | changed w _ _ h =>
      rw [h]
      exact Function.update_of_ne hne _ _
  idle_rely h hst := hst.trans h

end Schema

end

/-! ## Programs that commit what they have checked -/

/-- From what was read before, the program commits only what it has checked, and it ends in `R` of
what it returns and has read. The databases that it reads satisfy their constraints. -/
def Checked (S : Schema D W ε) :
    RecordProg D W N ε α → (α → List D → Prop) → (ε → List D → Prop) → List D → Prop
  | .ret a, R, _, seen => R a seen
  | .raise e, _, E, seen => E e seen
  | .call .look k, R, E, seen =>
      (∀ d, S.admits d = true → Checked S (k (.ok d)) R E (d :: seen)) ∧
        Checked S (k (.error S.failed)) R E seen
  | .call .draw k, R, E, seen => ∀ x, Checked S (k (.ok x)) R E seen
  | .call (.commit w) k, R, E, seen =>
      S.supported w seen ∧ Checked S (k (.ok ())) R E [] ∧
        Checked S (k (.error S.refused)) R E seen ∧ Checked S (k (.error S.failed)) R E seen
  | .call (.commitIf w) k, R, E, seen =>
      S.supported w seen ∧ (∀ b, Checked S (k (.ok b)) R E []) ∧
        Checked S (k (.error S.refused)) R E seen ∧ Checked S (k (.error S.failed)) R E seen
  | .call .rollback k, R, E, _ => Checked S (k (.ok ())) R E []

section

variable {S : Schema D W ε} {p : RecordProg D W N ε α} {R R' : α → List D → Prop}
  {E E' : ε → List D → Prop} {seen : List D}

theorem checked_mono (h : Checked S p R E seen) (hR : ∀ a seen, R a seen → R' a seen)
    (hE : ∀ e seen, E e seen → E' e seen) : Checked S p R' E' seen := by
  induction p generalizing seen with
  | ret a => exact hR a seen h
  | raise e => exact hE e seen h
  | call q k ih =>
    cases q with
    | look => exact ⟨fun d hd => ih _ (h.1 d hd), ih _ h.2⟩
    | draw => exact fun x => ih _ (h x)
    | commit w => exact ⟨h.1, ih _ h.2.1, ih _ h.2.2.1, ih _ h.2.2.2⟩
    | commitIf w => exact ⟨h.1, fun b => ih _ (h.2.1 b), ih _ h.2.2.1, ih _ h.2.2.2⟩
    | rollback => exact ih _ h

theorem checked_bind {f : α → RecordProg D W N ε β} {R : β → List D → Prop}
    (h : Checked S p (fun a seen => Checked S (f a) R E seen) E seen) :
    Checked S (p >>= f) R E seen := by
  induction p generalizing seen with
  | ret a => exact h
  | raise e => exact h
  | call q k ih =>
    cases q with
    | look => exact ⟨fun d hd => ih _ (h.1 d hd), ih _ h.2⟩
    | draw => exact fun x => ih _ (h x)
    | commit w => exact ⟨h.1, ih _ h.2.1, ih _ h.2.2.1, ih _ h.2.2.2⟩
    | commitIf w => exact ⟨h.1, fun b => ih _ (h.2.1 b), ih _ h.2.2.1, ih _ h.2.2.2⟩
    | rollback => exact ih _ h

/-- A program and what follows it. -/
theorem checked_seq {f : α → RecordProg D W N ε β} {R' : α → List D → Prop} {R : β → List D → Prop}
    (h : Checked S p R' E seen) (hf : ∀ a seen, R' a seen → Checked S (f a) R E seen) :
    Checked S (p >>= f) R E seen :=
  checked_bind (checked_mono h hf fun _ _ h => h)

theorem checked_tryCatch {g : ε → RecordProg D W N ε α}
    (h : Checked S p R (fun e seen => Checked S (g e) R E seen) seen) :
    Checked S (tryCatch p g) R E seen := by
  induction p generalizing seen with
  | ret a => exact h
  | raise e => exact h
  | call q k ih =>
    cases q with
    | look => exact ⟨fun d hd => ih _ (h.1 d hd), ih _ h.2⟩
    | draw => exact fun x => ih _ (h x)
    | commit w => exact ⟨h.1, ih _ h.2.1, ih _ h.2.2.1, ih _ h.2.2.2⟩
    | commitIf w => exact ⟨h.1, fun b => ih _ (h.2.1 b), ih _ h.2.2.1, ih _ h.2.2.2⟩
    | rollback => exact ih _ h

theorem checked_look {R : D → List D → Prop} (h : ∀ d, S.admits d = true → R d (d :: seen))
    (he : E S.failed seen) : Checked S (RecordProg.look (N := N)) R E seen := ⟨h, he⟩

theorem checked_draw {R : N → List D → Prop} (h : ∀ x, R x seen) :
    Checked S (RecordProg.draw : RecordProg D W N ε N) R E seen := h

theorem checked_lift {x : Except ε α} (h : ∀ a, x = .ok a → R a seen)
    (he : ∀ e, x = .error e → E e seen) :
    Checked S (RecordProg.lift x : RecordProg D W N ε α) R E seen := by
  cases x with
  | ok a => exact h a rfl
  | error e => exact he e rfl

theorem checked_commit {w : W} {R : Unit → List D → Prop} (h : S.supported w seen) (hR : R () [])
    (he : E S.refused seen) (hf : E S.failed seen) :
    Checked S (RecordProg.commit (N := N) w) R E seen :=
  ⟨h, hR, he, hf⟩

theorem checked_commitIf {w : W} {R : Bool → List D → Prop} (h : S.supported w seen)
    (hR : ∀ b, R b []) (he : E S.refused seen) (hf : E S.failed seen) :
    Checked S (RecordProg.commitIf (N := N) w) R E seen :=
  ⟨h, hR, he, hf⟩

variable [DecidableEq ι] {i : ι}

/-- A program that is checked keeps the contract. -/
theorem Checked.wp {s : Records D ι} (h : Checked S p R E (s.seen i)) :
    wp (S.logic N ι) i p (fun a t => R a (t.seen i)) (fun e t => E e (t.seen i)) s := by
  induction p generalizing s with
  | ret a => exact h
  | raise e => exact h
  | call q k ih =>
    intro t hst hi
    have hseen : t.seen i = s.seen i := hst
    cases q with
    | look =>
      refine ⟨fun w hw => (by cases hw), ?_⟩
      rintro r u (⟨rfl, rfl⟩ | ⟨rfl, rfl⟩)
      · refine ih _ ?_
        rw [Records.see_seen, hseen]
        exact h.1 t.db hi
      · exact ih _ (hseen ▸ h.2)
    | draw =>
      refine ⟨fun w hw => (by cases hw), ?_⟩
      rintro r u ⟨x, rfl, rfl⟩
      exact ih _ (hseen ▸ h x)
    | commit w =>
      refine ⟨fun w' hw => ?_, ?_⟩
      · cases hw
        exact hseen ▸ h.1
      · rintro r u (hr | ⟨rfl, rfl⟩)
        · split at hr
          · obtain ⟨rfl, rfl⟩ := hr
            refine ih _ ?_
            rw [Records.write_seen]
            exact h.2.1
          · obtain ⟨rfl, rfl⟩ := hr
            exact ih _ (hseen ▸ h.2.2.1)
        · exact ih _ (hseen ▸ h.2.2.2)
    | commitIf w =>
      refine ⟨fun w' hw => ?_, ?_⟩
      · cases hw
        exact hseen ▸ h.1
      · rintro r u (hr | ⟨rfl, rfl⟩)
        · split at hr
          · split at hr
            · obtain ⟨rfl, rfl⟩ := hr
              refine ih _ ?_
              rw [Records.write_seen]
              exact h.2.1 true
            · obtain ⟨rfl, rfl⟩ := hr
              exact ih _ (hseen ▸ h.2.2.1)
          · obtain ⟨rfl, rfl⟩ := hr
            refine ih _ ?_
            rw [Records.forget_seen]
            exact h.2.1 false
        · exact ih _ (hseen ▸ h.2.2.2)
    | rollback =>
      refine ⟨fun w hw => (by cases hw), ?_⟩
      rintro r u ⟨rfl, rfl⟩
      refine ih _ ?_
      rw [Records.forget_seen]
      exact h

end

/-- Every path closes the transaction. -/
def Checks (S : Schema D W ε) (p : RecordProg D W N ε Unit) : Prop :=
  Checked S p (fun _ seen => seen = []) (fun _ seen => seen = []) []

theorem Checks.keeps [DecidableEq ι] {S : Schema D W ε} {p : RecordProg D W N ε Unit}
    (h : Checks S p) : (S.logic N ι).Keeps p := by
  intro i s _ hidle
  refine wp_mono (Checked.wp (R := fun _ seen => seen = []) (E := fun _ seen => seen = []) ?_)
    (fun _ _ h => h) (fun _ _ h => h)
  rw [show s.seen i = [] from hidle]
  exact h

/-- A request with its session, which is rolled back whatever happens. -/
def recordSession (p : RecordProg D W N ε α) : RecordProg D W N ε Unit := do
  let _ ← tryCatch p fun e => do
    RecordProg.rollback
    throw e
  RecordProg.rollback

theorem checks_session {S : Schema D W ε} {p : RecordProg D W N ε α}
    (h : Checked S p (fun _ _ => True) (fun _ _ => True) []) : Checks S (recordSession p) := by
  refine checked_bind (checked_tryCatch (checked_mono h ?_ ?_))
  · intro a seen _
    exact rfl
  · intro e seen _
    exact rfl

/-! ### Programs that are abandoned where they raise -/

section

variable {S : Schema D W ε} {seen : List D}

/-- The program commits what it has checked, and returns in `R`. -/
abbrev Vetted (S : Schema D W ε) (p : RecordProg D W N ε α) (R : α → List D → Prop)
    (seen : List D) : Prop :=
  Checked S p R (fun _ _ => True) seen

variable {R : β → List D → Prop}

theorem vetted_look {f : D → RecordProg D W N ε β}
    (h : ∀ d, S.admits d = true → Vetted S (f d) R (d :: seen)) :
    Vetted S (RecordProg.look >>= f) R seen :=
  checked_bind (checked_look h trivial)

theorem vetted_draw {f : N → RecordProg D W N ε β} (h : ∀ x, Vetted S (f x) R seen) :
    Vetted S (RecordProg.draw >>= f) R seen :=
  checked_bind (checked_draw h)

theorem vetted_lift {x : Except ε α} {f : α → RecordProg D W N ε β}
    (h : ∀ a, Vetted S (f a) R seen) : Vetted S (RecordProg.lift x >>= f) R seen :=
  checked_bind (checked_lift (fun a _ => h a) fun _ _ => trivial)

/-- Where what the computation has checked is needed. -/
theorem vetted_lift_ok {x : Except ε α} {f : α → RecordProg D W N ε β}
    (h : ∀ a, x = .ok a → Vetted S (f a) R seen) : Vetted S (RecordProg.lift x >>= f) R seen :=
  checked_bind (checked_lift h fun _ _ => trivial)

/-- A check that raises, and what follows it. -/
theorem vetted_guard {c : Prop} [Decidable c] {x : Except ε Unit} {f : Unit → RecordProg D W N ε β}
    (h : Vetted S (f ()) R seen) :
    Vetted S (if c then RecordProg.lift x >>= f else f ()) R seen := by
  split
  · exact vetted_lift fun _ => h
  · exact h

theorem vetted_commit {w : W} {f : Unit → RecordProg D W N ε β} (h : S.supported w seen)
    (hf : Vetted S (f ()) R []) : Vetted S (RecordProg.commit w >>= f) R seen :=
  checked_bind (checked_commit h hf trivial trivial)

theorem vetted_rollback {f : Unit → RecordProg D W N ε β} (h : Vetted S (f ()) R []) :
    Vetted S (RecordProg.rollback >>= f) R seen := h

/-- What was committed is read again. -/
theorem vetted_commit_refresh {w : W} (h : S.supported w seen) :
    Vetted S (do RecordProg.commit (N := N) w; let _ ← RecordProg.look) (fun _ _ => True) seen :=
  vetted_commit h (vetted_look fun _ _ => trivial)

theorem vetted_commitIf {w : W} {f : Bool → RecordProg D W N ε β} (h : S.supported w seen)
    (hf : ∀ b, Vetted S (f b) R []) : Vetted S (RecordProg.commitIf w >>= f) R seen :=
  checked_bind (checked_commitIf h hf trivial trivial)

/-- Something that was read is so. -/
def Saw (c : D → Prop) (seen : List D) : Prop := ∃ d ∈ seen, c d

theorem Saw.mono {c : D → Prop} {seen' : List D} (h : Saw c seen) (hs : seen ⊆ seen') :
    Saw c seen' := by
  obtain ⟨d, hd, hc⟩ := h
  exact ⟨d, hs hd, hc⟩

theorem Saw.head {c : D → Prop} {d : D} (h : c d) : Saw c (d :: seen) :=
  ⟨d, List.mem_cons_self, h⟩

/-- Each check is true of something that was read. -/
def Saws (cs : List (D → Bool)) (seen : List D) : Prop := ∀ c ∈ cs, Saw (fun d => c d = true) seen

theorem Saws.mono {cs : List (D → Bool)} {seen' : List D} (h : Saws cs seen) (hs : seen ⊆ seen') :
    Saws cs seen' := fun c hc => (h c hc).mono hs

theorem supported_one {w : W} {c : D → Bool} (hw : S.checks w = [c]) {d : D} (hd : d ∈ seen)
    (hc : c d = true) : S.supported w seen := by
  intro c' hc'
  rw [hw, List.mem_singleton] at hc'
  subst hc'
  exact ⟨d, hd, hc⟩

/-- Each check is true of something that was read. -/
theorem supported_of {w : W} {cs : List (D → Bool)} (hw : S.checks w = cs)
    (h : cs.Forall fun c => Saw (fun d => c d = true) seen) : S.supported w seen :=
  fun c hc => List.forall_iff_forall_mem.1 h c (hw ▸ hc)

theorem supported_none {w : W} (hw : S.checks w = []) : S.supported w seen := by
  intro c hc
  rw [hw] at hc
  cases hc

end

/-! ## Runs of checked changes -/

/-- The steps that `ok` allows: a condition on the change and the database it is committed to. -/
def Schema.allows (_ : Schema D W ε) (ok : W → D → Bool) (q : RecordStatement W) (s : Records D ι) :
    Bool :=
  q.change?.all fun w => ok w s.db

/-- The steps that `ok` allows: a condition on the change, on what the operation has read, and on the
database that the change is committed to. -/
def Schema.allowsSeen (_ : Schema D W ε) (ok : W → List D → D → Bool) (i : ι) (q : RecordStatement W)
    (s : Records D ι) : Bool :=
  q.change?.all fun w => ok w (s.seen i) s.db

/-- What was so when it was read is so, where it has stayed so since. -/
theorem holds_since {seen : List D} {p : D → Bool} {P : Prop} [Decidable P]
    (hread : ∃ d ∈ seen, p d = true) (hsince : (seen.all fun d => decide (p d = true → P)) = true) :
    P := by
  obtain ⟨d, hd, hp⟩ := hread
  exact of_decide_eq_true (List.all_eq_true.1 hsince d hd) hp

/-- `d` satisfies the invariant, and so does every database that there was or that is remembered,
each of them related to `d`. -/
def Records.Descends (I : D → Prop) (R : D → D → Prop) (s : Records D ι) : Prop :=
  I s.db ∧ (∀ d ∈ s.past, R d s.db) ∧ ∀ i, ∀ d ∈ s.seen i, I d ∧ R d s.db

section

variable [DecidableEq ι] {I : D → Prop} {R : D → D → Prop} {s : Records D ι} (i : ι)

theorem Records.Descends.see (hrefl : ∀ d, R d d) (h : s.Descends I R) :
    (s.see i).Descends I R := by
  refine ⟨h.1, h.2.1, fun j d hd => ?_⟩
  by_cases hj : j = i
  · subst hj
    rw [Records.see_seen] at hd
    rcases List.mem_cons.1 hd with rfl | hd
    · exact ⟨h.1, hrefl _⟩
    · exact h.2.2 j d hd
  · rw [show (s.see i).seen j = s.seen j from Function.update_of_ne hj _ _] at hd
    exact h.2.2 j d hd

theorem Records.Descends.forget (h : s.Descends I R) : (s.forget i).Descends I R := by
  refine ⟨h.1, h.2.1, fun j d hd => ?_⟩
  by_cases hj : j = i
  · subst hj
    rw [Records.forget_seen] at hd
    cases hd
  · rw [show (s.forget i).seen j = s.seen j from Function.update_of_ne hj _ _] at hd
    exact h.2.2 j d hd

theorem Records.Descends.write (htrans : ∀ a b c, R a b → R b c → R a c) (h : s.Descends I R)
    {d : D} (hI : I d) (hR : R s.db d) : (s.write i d).Descends I R := by
  refine ⟨hI, fun d' hd' => ?_, fun j d' hd' => ?_⟩
  · rcases List.mem_append.1 hd' with hd' | hd'
    · exact htrans _ _ _ (h.2.1 d' hd') hR
    · rw [List.mem_singleton.1 hd']
      exact hR
  · obtain ⟨hI', hR'⟩ := (h.forget i).2.2 j d' hd'
    exact ⟨hI', htrans _ _ _ hR' hR⟩

end

/-- **Runs of checked changes.** What was read satisfied the invariant, and the present database is
related to it. -/
theorem Reach.descends [DecidableEq ι] {S : Schema D W ε} {ok : W → List D → D → Bool}
    {starts : Set (RecordProg D W N ε Unit)} (hs : ∀ p ∈ starts, Checks S p) {init : Set D}
    {I : D → Prop} (hinit : ∀ d ∈ init, I d) {R : D → D → Prop} (hrefl : ∀ d, R d d)
    (htrans : ∀ a b c, R a b → R b c → R a c) (hadmits : ∀ d, I d → S.admits d = true)
    (hstep : ∀ w seen d, I d → (∀ d' ∈ seen, I d' ∧ R d' d) → S.supported w seen →
      ok w seen d = true → S.admits (S.apply w d) = true → I (S.apply w d) ∧ R d (S.apply w d))
    {w : World (RecordStatement W) (RecordStatement.Answer D N) ε (Records D ι) ι}
    (h : Reach ((S.machine N ι).restrict fun i q s _ => S.allowsSeen ok i q s = true) starts
      (fun s => ∃ d ∈ init, s = Records.init d) w) : w.store.Descends I R := by
  refine h.invariant (L := S.logic N ι) (J := Records.Descends I R)
    (fun p hp => (hs p hp).keeps) ?_ ?_ ?_
  · rintro s ⟨d, hd, rfl⟩
    exact ⟨hadmits d (hinit d hd), fun i => rfl⟩
  · rintro s ⟨d, hd, rfl⟩
    exact ⟨hinit d hd, fun d' hd' => (by cases hd'), fun i d' hd' => (by cases hd')⟩
  · intro i q s r t _ _ hpre hq hc hJ
    cases Schema.step_effect hq with
    | unchanged h => exact h ▸ hJ
    | seen h => exact h ▸ hJ.see i hrefl
    | forgotten h => exact h ▸ hJ.forget i
    | changed c hchange hadmits h =>
      have hok : ok c (s.seen i) s.db = true := by simpa [Schema.allowsSeen, hchange] using hc
      obtain ⟨hI, hR⟩ := hstep c _ s.db hJ.1 (hJ.2.2 i) (hpre c hchange) hok hadmits
      rw [h]
      exact hJ.write i htrans hI hR

/-- What holds of the database, and of those that there were. -/
theorem Reach.records_seen [DecidableEq ι] {S : Schema D W ε} {ok : W → List D → D → Bool}
    {starts : Set (RecordProg D W N ε Unit)} (hs : ∀ p ∈ starts, Checks S p) {init : Set D}
    {I : D → Prop} (hinit : ∀ d ∈ init, I d) {R : D → D → Prop} (hrefl : ∀ d, R d d)
    (htrans : ∀ a b c, R a b → R b c → R a c) (hadmits : ∀ d, I d → S.admits d = true)
    (hstep : ∀ w seen d, I d → (∀ d' ∈ seen, I d' ∧ R d' d) → S.supported w seen →
      ok w seen d = true → S.admits (S.apply w d) = true → I (S.apply w d) ∧ R d (S.apply w d))
    {w : World (RecordStatement W) (RecordStatement.Answer D N) ε (Records D ι) ι}
    (h : Reach ((S.machine N ι).restrict fun i q s _ => S.allowsSeen ok i q s = true) starts
      (fun s => ∃ d ∈ init, s = Records.init d) w) :
    I w.store.db ∧ ∀ d ∈ w.store.past, R d w.store.db := by
  have hdescends := Reach.descends hs hinit hrefl htrans hadmits hstep h
  exact ⟨hdescends.1, hdescends.2.1⟩

/-- What was checked was so in a database to which the present one is related. -/
theorem Reach.records [DecidableEq ι] {S : Schema D W ε} {ok : W → D → Bool}
    {starts : Set (RecordProg D W N ε Unit)} (hs : ∀ p ∈ starts, Checks S p) {init : Set D}
    {I : D → Prop} (hinit : ∀ d ∈ init, I d) {R : D → D → Prop} (hrefl : ∀ d, R d d)
    (htrans : ∀ a b c, R a b → R b c → R a c) (hadmits : ∀ d, I d → S.admits d = true)
    (hstep : ∀ w d, I d → (∀ c ∈ S.checks w, ∃ d', I d' ∧ R d' d ∧ c d' = true) → ok w d = true →
      S.admits (S.apply w d) = true → I (S.apply w d) ∧ R d (S.apply w d))
    {w : World (RecordStatement W) (RecordStatement.Answer D N) ε (Records D ι) ι}
    (h : Reach ((S.machine N ι).restrict fun _ q s _ => S.allows ok q s = true) starts
      (fun s => ∃ d ∈ init, s = Records.init d) w) :
    I w.store.db ∧ ∀ d ∈ w.store.past, R d w.store.db := by
  have h' : Reach ((S.machine N ι).restrict fun i q s _ =>
      S.allowsSeen (fun w _ d => ok w d) i q s = true) starts
      (fun s => ∃ d ∈ init, s = Records.init d) w := h
  refine Reach.records_seen hs hinit hrefl htrans hadmits ?_ h'
  intro w seen d hd hseen hsupported hok
  refine hstep w d hd (fun c hc => ?_) hok
  obtain ⟨d', hd', htrue⟩ := hsupported c hc
  exact ⟨d', (hseen d' hd').1, (hseen d' hd').2, htrue⟩

/-! ## Runs without a failure -/

/-- The scheduler of runs without a failure; every process draws the same every time. -/
def Schema.scheduleBy [DecidableEq ι] (S : Schema D W ε) (x : ι → N) : Schedule (S.machine N ι) where
  answer i
    | .look, s => some (.ok s.db, s.see i)
    | .draw, s => some (.ok (x i), s)
    | .commit w, s =>
      if S.admits (S.apply w s.db) then some (.ok (), s.write i (S.apply w s.db))
      else some (.error S.refused, s)
    | .commitIf w, s =>
      if S.isMet w s.db then
        if S.admits (S.apply w s.db) then some (.ok true, s.write i (S.apply w s.db))
        else some (.error S.refused, s)
      else some (.ok false, s.forget i)
    | .rollback, s => some (.ok (), s.forget i)
  sound i q s r t h := by
    cases q with
    | look =>
      cases h
      exact .inl ⟨rfl, rfl⟩
    | draw =>
      cases h
      exact ⟨x i, rfl, rfl⟩
    | commit w =>
      dsimp only at h
      refine .inl ?_
      split at h
      · next hadmits =>
        cases h
        rw [if_pos hadmits]
        exact ⟨rfl, rfl⟩
      · next hadmits =>
        cases h
        rw [if_neg hadmits]
        exact ⟨rfl, rfl⟩
    | commitIf w =>
      dsimp only at h
      refine .inl ?_
      split at h
      · next hmet =>
        rw [if_pos hmet]
        split at h
        · next hadmits =>
          cases h
          rw [if_pos hadmits]
          exact ⟨rfl, rfl⟩
        · next hadmits =>
          cases h
          rw [if_neg hadmits]
          exact ⟨rfl, rfl⟩
      · next hmet =>
        cases h
        rw [if_neg hmet]
        exact ⟨rfl, rfl⟩
    | rollback =>
      cases h
      exact ⟨rfl, rfl⟩

/-- All of them draw the same. -/
def Schema.schedule [DecidableEq ι] (S : Schema D W ε) (x : N) : Schedule (S.machine N ι) :=
  S.scheduleBy fun _ => x

/-- The scheduler with nothing read of some databases. -/
def Schema.failing [DecidableEq ι] {S : Schema D W ε} (T : Schedule (S.machine N ι)) (fails : D → Bool) :
    Schedule (S.machine N ι) where
  answer i
    | .look, s => if fails s.db then some (.error S.failed, s) else T.answer i .look s
    | q, s => T.answer i q s
  sound i q s r t h := by
    cases q with
    | look =>
      dsimp only at h
      split at h
      · cases h
        exact .inr ⟨rfl, rfl⟩
      · exact T.sound i .look s r t h
    | _ => exact T.sound i _ s r t h

end Program
