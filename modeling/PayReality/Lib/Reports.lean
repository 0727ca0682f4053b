import PayReality.Lib.Program

/-!
# What the operations of a run answer

A `World` forgets what an operation returned. Here an operation ends by *reporting* its result, and
the store keeps the report together with the statements that the operation has sent and what each
was answered.

* `Machine.tracing`: the machine whose store keeps the trace of every process.
* `Machine.reporting`, `Prog.reported`: the statements of a machine and reports; a program that
  reports how it ends.
* `Logic.tracing`, `Logic.reporting`: a contract, with results that may speak about the trace, and
  with a condition on every report that was made.
* `keeps_reported`: a program that ends as the condition says keeps the second contract, so
  `Reach.sound` proves the condition of every report of every run.
-/

namespace Program

variable {Q : Type} {A : Q → Type} {ε σ ι ρ α : Type}

/-- A statement and its answer. -/
abbrev Answered (Q : Type) (A : Q → Type) (ε : Type) : Type := (q : Q) × Except ε (A q)

/-- A store, what each process has sent in its operation so far, and the reports made. -/
structure Reported (Q : Type) (A : Q → Type) (ε σ ι ρ : Type) where
  store : σ
  trace : ι → List (Answered Q A ε)
  reports : List (ρ × List (Answered Q A ε)) := []

/-- Nothing has been sent. -/
def Reported.init (s : σ) : Reported Q A ε σ ι ρ := { store := s, trace := fun _ => [] }

/-- The answers to statements and to reports. -/
abbrev ReportAnswer (A : Q → Type) (ρ : Type) : Q ⊕ ρ → Type
  | .inl q => A q
  | .inr _ => Unit

/-- The program, which reports its end. -/
def Prog.reported (mk : Except ε α → ρ) :
    Prog Q A ε α → Prog (Q ⊕ ρ) (ReportAnswer A ρ) ε Unit
  | .ret a => .call (.inr (mk (.ok a))) fun _ => .ret ()
  | .raise e => .call (.inr (mk (.error e))) fun _ => .ret ()
  | .call q k => .call (.inl q) fun r => (k r).reported mk

section

variable [DecidableEq ι]

namespace Reported

/-- Process `i` has sent `q`, and the store is `t`. -/
def sent (s : Reported Q A ε σ ι ρ) (i : ι) (q : Q) (r : Except ε (A q)) (t : σ) :
    Reported Q A ε σ ι ρ :=
  { s with store := t, trace := Function.update s.trace i (s.trace i ++ [⟨q, r⟩]) }

/-- Process `i` has reported, and its operation is over. -/
def report (s : Reported Q A ε σ ι ρ) (i : ι) (x : ρ) : Reported Q A ε σ ι ρ :=
  { s with trace := Function.update s.trace i [], reports := s.reports ++ [(x, s.trace i)] }

variable {s : Reported Q A ε σ ι ρ} {i j : ι} {q : Q} {r : Except ε (A q)} {t : σ} {x : ρ}

@[simp] theorem sent_store : (s.sent i q r t).store = t := rfl

@[simp] theorem sent_reports : (s.sent i q r t).reports = s.reports := rfl

@[simp] theorem sent_trace_self : (s.sent i q r t).trace i = s.trace i ++ [⟨q, r⟩] :=
  Function.update_self ..

theorem sent_trace_of_ne (h : j ≠ i) : (s.sent i q r t).trace j = s.trace j :=
  Function.update_of_ne h ..

@[simp] theorem report_store : (s.report i x).store = s.store := rfl

@[simp] theorem report_trace_self : (s.report i x).trace i = [] := Function.update_self ..

theorem report_trace_of_ne (h : j ≠ i) : (s.report i x).trace j = s.trace j :=
  Function.update_of_ne h ..

end Reported

namespace Machine

variable (M : Machine Q A ε σ ι)

/-- The machine, with traces. -/
def tracing (ρ : Type) : Machine Q A ε (Reported Q A ε σ ι ρ) ι where
  step i q s r t := ∃ u, M.step i q s.store r u ∧ t = s.sent i q r u

/-- The machine, with traces and reports. -/
def reporting (ρ : Type) : Machine (Q ⊕ ρ) (ReportAnswer A ρ) ε (Reported Q A ε σ ι ρ) ι where
  step i
    | .inl q, s, r, t => (M.tracing ρ).step i q s r t
    | .inr x, s, r, t => r = .ok () ∧ t = s.report i x

end Machine

/-! ## Contracts -/

variable {M : Machine Q A ε σ ι} (L : Logic M)

/-- What a report says stays true, whoever acts. -/
structure Stable (Post : ρ → List (Answered Q A ε) → σ → Prop) : Prop where
  step : ∀ {i q s r t x tr}, L.inv s → L.pre i q s → M.step i q s r t → Post x tr s → Post x tr t
  rely : ∀ {i s t x tr}, L.rely i s t → Post x tr s → Post x tr t

namespace Logic

def tracing (ρ : Type) : Logic (M.tracing ρ) where
  inv s := L.inv s.store
  pre i q s := L.pre i q s.store
  rely i s t := L.rely i s.store t.store ∧ t.trace i = s.trace i
  idle i s := L.idle i s.store ∧ s.trace i = []
  inv_step := by
    rintro i q s r t hi hpre ⟨u, hstep, rfl⟩
    exact L.inv_step hi hpre hstep
  rely_refl i s := ⟨L.rely_refl i s.store, rfl⟩
  rely_trans h h' := ⟨L.rely_trans h.1 h'.1, h'.2.trans h.2⟩
  rely_step := by
    rintro i j q s r t hij hi hpre ⟨u, hstep, rfl⟩
    exact ⟨L.rely_step hij hi hpre hstep, Reported.sent_trace_of_ne hij.symm⟩
  idle_rely h hst := ⟨L.idle_rely h.1 hst.1, hst.2.trans h.2⟩

variable {L} {Post : ρ → List (Answered Q A ε) → σ → Prop}

/-- A report may be made where it satisfies `Post`. -/
def reporting (h : Stable L Post) : Logic (M.reporting ρ) where
  inv s := L.inv s.store ∧ ∀ e ∈ s.reports, Post e.1 e.2 s.store
  pre i
    | .inl q, s => L.pre i q s.store
    | .inr x, s => Post x (s.trace i) s.store
  rely := (L.tracing ρ).rely
  idle := (L.tracing ρ).idle
  inv_step := by
    intro i q s r t hi hpre hstep
    cases q with
    | inl q =>
      obtain ⟨u, hstep, rfl⟩ := hstep
      exact ⟨L.inv_step hi.1 hpre hstep, fun e he => h.step hi.1 hpre hstep (hi.2 e he)⟩
    | inr x =>
      obtain ⟨-, rfl⟩ := hstep
      refine ⟨hi.1, fun e he => ?_⟩
      rcases List.mem_append.1 he with he | he
      · exact hi.2 e he
      · rw [List.mem_singleton.1 he]
        exact hpre
  rely_refl := (L.tracing ρ).rely_refl
  rely_trans := (L.tracing ρ).rely_trans
  rely_step := by
    intro i j q s r t hij hi hpre hstep
    cases q with
    | inl q => exact (L.tracing ρ).rely_step hij hi.1 hpre hstep
    | inr x =>
      obtain ⟨-, rfl⟩ := hstep
      exact ⟨L.rely_refl j s.store, Reported.report_trace_of_ne hij.symm⟩
  idle_rely := (L.tracing ρ).idle_rely

end Logic

variable {L} {Post : ρ → List (Answered Q A ε) → σ → Prop} {mk : Except ε α → ρ}
  {p : Prog Q A ε α} {i : ι} {s : Reported Q A ε σ ι ρ}

/-- What is proved without traces. -/
theorem wp_tracing {R : α → σ → Prop} {E : ε → σ → Prop} (hp : wp L i p R E s.store) :
    wp (L.tracing ρ) i p (fun a t => R a t.store) (fun e t => E e t.store) s := by
  induction p generalizing s with
  | ret a => exact hp
  | raise e => exact hp
  | call q k ih =>
    intro t hst ht
    obtain ⟨hpre, hk⟩ := hp t.store hst.1 ht
    refine ⟨hpre, ?_⟩
    rintro r _ ⟨u, hstep, rfl⟩
    exact ih r (hk r u hstep)

/-- A program that ends in what its report says may report. -/
theorem wp_reported (h : Stable L Post)
    (hp : wp (L.tracing ρ) i p
      (fun a t => L.idle i t.store ∧ Post (mk (.ok a)) (t.trace i) t.store)
      (fun e t => L.idle i t.store ∧ Post (mk (.error e)) (t.trace i) t.store) s) :
    wp (Logic.reporting h) i (p.reported mk) (fun _ => (Logic.reporting h).idle i)
      (fun _ => (Logic.reporting h).idle i) s := by
  have hend : ∀ (x : ρ) (s : Reported Q A ε σ ι ρ), L.idle i s.store → Post x (s.trace i) s.store →
      wp (Logic.reporting h) i (.call (.inr x) fun _ => .ret ())
        (fun _ => (Logic.reporting h).idle i) (fun _ => (Logic.reporting h).idle i) s := by
    intro x s hidle hPost t hst ht
    refine ⟨?_, ?_⟩
    · show Post x (t.trace i) t.store
      rw [hst.2]
      exact h.rely hst.1 hPost
    · rintro r u ⟨-, rfl⟩
      exact ⟨L.idle_rely hidle hst.1, Reported.report_trace_self⟩
  induction p generalizing s with
  | ret a => exact hend _ s hp.1 hp.2
  | raise e => exact hend _ s hp.1 hp.2
  | call q k ih =>
    intro t hst ht
    obtain ⟨hpre, hk⟩ := hp t hst ht.1
    exact ⟨hpre, fun r u hstep => ih r (hk r u hstep)⟩

theorem keeps_reported (h : Stable L Post)
    (hp : ∀ i s, L.inv s.store → (L.tracing ρ).idle i s → wp (L.tracing ρ) i p
      (fun a t => L.idle i t.store ∧ Post (mk (.ok a)) (t.trace i) t.store)
      (fun e t => L.idle i t.store ∧ Post (mk (.error e)) (t.trace i) t.store) s) :
    (Logic.reporting h).Keeps (p.reported mk) :=
  fun i s hi hidle => wp_reported h (hp i s hi.1 hidle)

/-- Every exception that the program raises satisfies `F`, if the faults of its statements do. -/
def Raises (F : ε → Prop) : Prog Q A ε α → Prop
  | .ret _ => True
  | .raise e => F e
  | .call _ k => ∀ r, (∀ e, r = .error e → F e) → Raises F (k r)

theorem raises_bind {β : Type} {F : ε → Prop} {p : Prog Q A ε α} {f : α → Prog Q A ε β}
    (hp : Raises F p) (hf : ∀ a, Raises F (f a)) : Raises F (p >>= f) := by
  induction p with
  | ret a => exact hf a
  | raise e => exact hp
  | call q k ih => exact fun r hr => ih r (hp r hr)

theorem raises_send {F : ε → Prop} {q : Q} : Raises F (Prog.send (A := A) q) := by
  intro r hr
  cases r with
  | ok a => trivial
  | error e => exact hr e rfl

/-- A program that sends only what `P` allows keeps what the others keep and what those statements
keep; what it returns is what `R` says of the trace, and what it raises satisfies `F`. -/
theorem wp_sends {P : Q → Prop} {R : List (Answered Q A ε) → α → Prop} {F : ε → Prop} {I : σ → Prop}
    (h : ∀ tr, s.trace i ⊆ tr → Sends P (fun q r => ⟨q, r⟩ ∈ tr) p (R tr)) (hF : Raises F p)
    (hs : I s.store) (hrely : ∀ {s t}, L.rely i s t → I s → I t)
    (hstep : ∀ {q s r t}, P q → M.step i q s r t → I s → I t)
    (hfault : ∀ {q s e t}, P q → M.step i q s (.error e) t → F e)
    (hpre : ∀ {q s}, P q → L.inv s → I s → L.pre i q s) :
    wp (L.tracing ρ) i p
      (fun a t => R (t.trace i) a ∧ I t.store ∧ s.trace i ⊆ t.trace i ∧
        ∀ x ∈ t.trace i, x ∈ s.trace i ∨ P x.1)
      (fun e t => F e ∧ I t.store ∧ s.trace i ⊆ t.trace i ∧
        ∀ x ∈ t.trace i, x ∈ s.trace i ∨ P x.1) s := by
  induction p generalizing s with
  | ret a => exact ⟨h _ (List.Subset.refl _), hs, List.Subset.refl _, fun x hx => .inl hx⟩
  | raise e => exact ⟨hF, hs, List.Subset.refl _, fun x hx => .inl hx⟩
  | call q k ih =>
    intro t hst ht
    have hP := (h _ (List.Subset.refl _)).1
    have hIt := hrely hst.1 hs
    refine ⟨hpre hP ht hIt, ?_⟩
    rintro r _ ⟨u, hstep', rfl⟩
    have htrace : (t.sent i q r u).trace i = s.trace i ++ [⟨q, r⟩] := by
      rw [Reported.sent_trace_self, hst.2]
    have hsub : s.trace i ⊆ (t.sent i q r u).trace i := by
      rw [htrace]
      exact List.subset_append_left _ _
    have hnew : ∀ x ∈ (t.sent i q r u).trace i, x ∈ s.trace i ∨ P x.1 := by
      intro x hx
      rw [htrace, List.mem_append, List.mem_singleton] at hx
      rcases hx with hx | rfl
      · exact .inl hx
      · exact .inr hP
    have hraises : Raises F (k r) := by
      refine hF r fun e he => ?_
      subst he
      exact hfault hP hstep'
    have hrest := ih r (s := t.sent i q r u)
      (fun tr htr => (h tr (List.Subset.trans hsub htr)).2 r (htr (by simp))) hraises
      (hstep hP hstep' hIt)
    refine wp_mono hrest ?_ ?_
    · rintro a t' ⟨hR, hI, hsub', hnew'⟩
      exact ⟨hR, hI, List.Subset.trans hsub hsub', fun x hx => (hnew' x hx).elim (hnew x) .inr⟩
    · rintro e t' ⟨hF', hI, hsub', hnew'⟩
      exact ⟨hF', hI, List.Subset.trans hsub hsub', fun x hx => (hnew' x hx).elim (hnew x) .inr⟩

/-! ## What is sent, by what was answered before -/

/-- Every statement is sent as `P` says of it and of what was answered before, and the program ends in
`R` (returning) or `E` (raising). -/
def Sending (P : Q → List (Answered Q A ε) → Prop) :
    Prog Q A ε α → (α → List (Answered Q A ε) → Prop) → (ε → List (Answered Q A ε) → Prop) →
      List (Answered Q A ε) → Prop
  | .ret a, R, _, tr => R a tr
  | .raise e, _, E, tr => E e tr
  | .call q k, R, E, tr => P q tr ∧ ∀ r, Sending P (k r) R E (tr ++ [⟨q, r⟩])

section

variable {β : Type} {P : Q → List (Answered Q A ε) → Prop} {p : Prog Q A ε α}
  {R R' : α → List (Answered Q A ε) → Prop} {E E' : ε → List (Answered Q A ε) → Prop}
  {tr : List (Answered Q A ε)}

theorem sending_mono (h : Sending P p R E tr) (hR : ∀ a tr, R a tr → R' a tr)
    (hE : ∀ e tr, E e tr → E' e tr) : Sending P p R' E' tr := by
  induction p generalizing tr with
  | ret a => exact hR a tr h
  | raise e => exact hE e tr h
  | call q k ih => exact ⟨h.1, fun r => ih r (h.2 r)⟩

theorem sending_bind {f : α → Prog Q A ε β} {R : β → List (Answered Q A ε) → Prop}
    (h : Sending P p (fun a tr => Sending P (f a) R E tr) E tr) : Sending P (p >>= f) R E tr := by
  induction p generalizing tr with
  | ret a => exact h
  | raise e => exact h
  | call q k ih => exact ⟨h.1, fun r => ih r (h.2 r)⟩

/-- A program and what follows it. -/
theorem sending_seq {f : α → Prog Q A ε β} {S : α → List (Answered Q A ε) → Prop}
    {R : β → List (Answered Q A ε) → Prop} (h : Sending P p S E tr)
    (hf : ∀ a tr, S a tr → Sending P (f a) R E tr) : Sending P (p >>= f) R E tr :=
  sending_bind (sending_mono h hf fun _ _ h => h)

theorem sending_tryCatch {g : ε → Prog Q A ε α}
    (h : Sending P p R (fun e tr => Sending P (g e) R E tr) tr) :
    Sending P (tryCatch p g) R E tr := by
  induction p generalizing tr with
  | ret a => exact h
  | raise e => exact h
  | call q k ih => exact ⟨h.1, fun r => ih r (h.2 r)⟩

theorem sending_send {q : Q} {R : A q → List (Answered Q A ε) → Prop} (h : P q tr)
    (hR : ∀ a, R a (tr ++ [⟨q, .ok a⟩])) (hE : ∀ e, E e (tr ++ [⟨q, .error e⟩])) :
    Sending P (Prog.send q) R E tr := by
  refine ⟨h, fun r => ?_⟩
  cases r with
  | ok a => exact hR a
  | error e => exact hE e

end

omit [DecidableEq ι] in
/-- What a process has sent, from its program to what is left of it. -/
theorem Acts.sending {i : ι} {P : Q → List (Answered Q A ε) → Prop} {p rest : Prog Q A ε α}
    {R : α → List (Answered Q A ε) → Prop} {E : ε → List (Answered Q A ε) → Prop}
    {acts : List (Act Q A ε σ)} {tr : List (Answered Q A ε)} (h : Acts M i p acts rest)
    (hp : Sending P p R E tr) : Sending P rest R E (tr ++ acts.map fun a => ⟨a.q, a.answer⟩) := by
  induction h generalizing tr with
  | nil p => simpa using hp
  | cons hstep _ ih => simpa using ih (hp.2 _)

/-- The contract of programs that send as `P` says, and report as `Post` does. -/
def sendingLogic (M : Machine Q A ε σ ι) (P : Q → List (Answered Q A ε) → Prop)
    (Post : ρ → List (Answered Q A ε) → Prop) : Logic (M.reporting ρ) where
  inv _ := True
  pre i
    | .inl q, s => P q (s.trace i)
    | .inr x, s => Post x (s.trace i)
  rely i s t := t.trace i = s.trace i
  idle i s := s.trace i = []
  inv_step _ _ _ := trivial
  rely_refl _ _ := rfl
  rely_trans h h' := h'.trans h
  rely_step := by
    intro i j q s r t hij _ _ hstep
    cases q with
    | inl q =>
      obtain ⟨u, -, rfl⟩ := hstep
      exact Reported.sent_trace_of_ne hij.symm
    | inr x =>
      obtain ⟨-, rfl⟩ := hstep
      exact Reported.report_trace_of_ne hij.symm
  idle_rely h hst := hst.trans h

theorem keeps_sending {P : Q → List (Answered Q A ε) → Prop}
    {Post : ρ → List (Answered Q A ε) → Prop} {p : Prog Q A ε α} {mk : Except ε α → ρ}
    (h : Sending P p (fun a => Post (mk (.ok a))) (fun e => Post (mk (.error e))) []) :
    (sendingLogic M P Post).Keeps (p.reported mk) := by
  intro i s _ hidle
  have hend : ∀ (x : ρ) (s : Reported Q A ε σ ι ρ), Post x (s.trace i) →
      wp (sendingLogic M P Post) i (.call (.inr x) fun _ => .ret ())
        (fun _ => (sendingLogic M P Post).idle i) (fun _ => (sendingLogic M P Post).idle i) s := by
    intro x s hx t hst _
    refine ⟨?_, ?_⟩
    · show Post x (t.trace i)
      rw [show t.trace i = s.trace i from hst]
      exact hx
    · rintro r u ⟨-, rfl⟩
      exact Reported.report_trace_self
  have hall : ∀ (p : Prog Q A ε α) (s : Reported Q A ε σ ι ρ),
      Sending P p (fun a => Post (mk (.ok a))) (fun e => Post (mk (.error e))) (s.trace i) →
      wp (sendingLogic M P Post) i (p.reported mk) (fun _ => (sendingLogic M P Post).idle i)
        (fun _ => (sendingLogic M P Post).idle i) s := by
    intro p
    induction p with
    | ret a => exact fun s hp => hend _ s hp
    | raise e => exact fun s hp => hend _ s hp
    | call q k ih =>
      intro s hp t hst _
      have htrace : t.trace i = s.trace i := hst
      refine ⟨?_, ?_⟩
      · show P q (t.trace i)
        rw [htrace]
        exact hp.1
      · rintro r _ ⟨u, -, rfl⟩
        refine ih r _ ?_
        rw [Reported.sent_trace_self, htrace]
        exact hp.2 r
  refine hall p s ?_
  rw [show s.trace i = [] from hidle]
  exact h

/-- **Invariants of runs of such programs.** What the statements that are sent as `P` says keep, and
the reports that are as `R` says, holds in every store of a run. -/
theorem Reach.sending {P : Q → List (Answered Q A ε) → Prop}
    {R : ρ → List (Answered Q A ε) → Prop}
    {c : ι → (q : Q ⊕ ρ) → Reported Q A ε σ ι ρ → Except ε (ReportAnswer A ρ q) → Prop}
    {starts : Set (Prog (Q ⊕ ρ) (ReportAnswer A ρ) ε Unit)}
    (hs : ∀ p ∈ starts, ∃ (α : Type) (p' : Prog Q A ε α) (mk : Except ε α → ρ), p = p'.reported mk ∧
      Sending P p' (fun a => R (mk (.ok a))) (fun e => R (mk (.error e))) [])
    {init : Reported Q A ε σ ι ρ → Prop} {J : Reported Q A ε σ ι ρ → Prop}
    (hinit : ∀ s, init s → (∀ i, s.trace i = []) ∧ J s)
    (hJ : ∀ i q s r t, P q (s.trace i) → M.step i q s.store r t → c i (.inl q) s r → J s →
      J (s.sent i q r t))
    (hreport : ∀ i x s, R x (s.trace i) → J s → J (s.report i x))
    {w : World (Q ⊕ ρ) (ReportAnswer A ρ) ε (Reported Q A ε σ ι ρ) ι}
    (h : Reach ((M.reporting ρ).restrict c) starts init w) : J w.store := by
  refine h.invariant (L := sendingLogic M P R) ?_ (fun s hs => ⟨trivial, (hinit s hs).1⟩)
    (fun s hs => (hinit s hs).2) ?_
  · intro p hp
    obtain ⟨α, p', mk, rfl, hp'⟩ := hs p hp
    exact keeps_sending hp'
  · intro i q s r t _ _ hpre hstep hc hs
    cases q with
    | inl q =>
      obtain ⟨u, hstep, rfl⟩ := hstep
      exact hJ i q s r u hpre hstep hc hs
    | inr x =>
      obtain ⟨-, rfl⟩ := hstep
      exact hreport i x s hpre hs

/-! ## Runs -/

section

variable {starts : Set (Prog Q A ε Unit)} {init : σ → Prop}

theorem Step.imp {M' : Machine Q A ε σ ι} {w w' : World Q A ε σ ι}
    (hM : ∀ i q s r t, M.step i q s r t → M'.step i q s r t) (h : Step M starts w w') :
    Step M' starts w w' := by
  cases h with
  | start i p hp hn => exact .start i p hp hn
  | call i hp hstep => exact .call i hp (hM _ _ _ _ _ hstep)
  | returned i hp => exact .returned i hp
  | raised i hp => exact .raised i hp

/-- A machine with more steps has more runs. -/
theorem Reach.imp {M' : Machine Q A ε σ ι} {w : World Q A ε σ ι}
    (hM : ∀ i q s r t, M.step i q s r t → M'.step i q s r t) (h : Reach M starts init w) :
    Reach M' starts init w := by
  induction h with
  | init hi => exact .init hi
  | step _ hstep ih => exact ih.step (hstep.imp hM)

end

/-! ### Reports are no statements of the machine -/

/-- The program without its reports. -/
def Prog.erased : Prog (Q ⊕ ρ) (ReportAnswer A ρ) ε α → Prog Q A ε α
  | .ret a => .ret a
  | .raise e => .raise e
  | .call (.inl q) k => .call q fun r => (k r).erased
  | .call (.inr _) k => (k (.ok ())).erased

/-- The world without its reports. -/
def World.erased (w : World (Q ⊕ ρ) (ReportAnswer A ρ) ε (Reported Q A ε σ ι ρ) ι) :
    World Q A ε σ ι :=
  ⟨w.store.store, fun i => (w.running i).map Prog.erased⟩

theorem World.erased_update {s : Reported Q A ε σ ι ρ}
    {running : ι → Option (Prog (Q ⊕ ρ) (ReportAnswer A ρ) ε Unit)} {i : ι}
    {p : Option (Prog (Q ⊕ ρ) (ReportAnswer A ρ) ε Unit)} :
    (World.mk s (Function.update running i p)).erased =
      ⟨s.store, Function.update (fun j => (running j).map Prog.erased) i (p.map Prog.erased)⟩ := by
  refine congrArg (World.mk s.store) (funext fun j => ?_)
  exact Function.apply_update (fun _ => Option.map Prog.erased) running i p j

/-- A run with reports is a run without them. -/
theorem Reach.erased {starts : Set (Prog (Q ⊕ ρ) (ReportAnswer A ρ) ε Unit)} {I : σ → Prop}
    {I' : Reported Q A ε σ ι ρ → Prop} (hinit : ∀ s, I' s → I s.store)
    {w : World (Q ⊕ ρ) (ReportAnswer A ρ) ε (Reported Q A ε σ ι ρ) ι}
    (h : Reach (M.reporting ρ) starts I' w) :
    Reach M (Prog.erased '' starts) I w.erased := by
  induction h with
  | init hi => exact .init (hinit _ hi)
  | @step w _ _ hstep ih =>
    cases hstep with
    | start i p hp hn =>
      rw [World.erased_update]
      refine ih.step (.start i p.erased (Set.mem_image_of_mem _ hp) ?_)
      exact congrArg (Option.map Prog.erased) hn
    | @call i q k r s hp hstep =>
      rw [World.erased_update]
      have hrunning := congrArg (Option.map Prog.erased) hp
      cases q with
      | inl q =>
        obtain ⟨u, hstep, rfl⟩ := hstep
        have hcall : Step M (Prog.erased '' starts) w.erased
            ⟨u, Function.update w.erased.running i (some (k r).erased)⟩ :=
          @Step.call Q A ε σ ι _ M _ w.erased i q (fun r => (k r).erased) r u hrunning hstep
        exact ih.step hcall
      | inr x =>
        -- the program is the same without the report
        obtain ⟨rfl, rfl⟩ := hstep
        have hsame : Function.update (fun j => (w.running j).map Prog.erased) i
            (some (k (.ok ())).erased) = fun j => (w.running j).map Prog.erased :=
          Function.update_eq_self_iff.2 hrunning.symm
        rw [Option.map_some, hsame]
        exact ih
    | returned i hp =>
      rw [World.erased_update]
      exact ih.step (.returned i (congrArg (Option.map Prog.erased) hp))
    | raised i hp =>
      rw [World.erased_update]
      exact ih.step (.raised i (congrArg (Option.map Prog.erased) hp))

/-- A machine with more steps has more runs with reports. -/
theorem Reach.reporting_imp {M' : Machine Q A ε σ ι}
    {starts : Set (Prog (Q ⊕ ρ) (ReportAnswer A ρ) ε Unit)} {init : Reported Q A ε σ ι ρ → Prop}
    {w : World (Q ⊕ ρ) (ReportAnswer A ρ) ε _ ι}
    (hM : ∀ i q s r t, M.step i q s r t → M'.step i q s r t)
    (h : Reach (M.reporting ρ) starts init w) : Reach (M'.reporting ρ) starts init w := by
  refine h.imp fun i q s r t hstep => ?_
  cases q with
  | inl q =>
    obtain ⟨u, hstep, rfl⟩ := hstep
    exact ⟨u, hM i q _ r u hstep, rfl⟩
  | inr x => exact hstep

/-- A machine that is not restricted. -/
theorem Reach.unrestricted {starts : Set (Prog (Q ⊕ ρ) (ReportAnswer A ρ) ε Unit)}
    {init : Reported Q A ε σ ι ρ → Prop} {w : World (Q ⊕ ρ) (ReportAnswer A ρ) ε _ ι}
    (h : Reach (M.reporting ρ) starts init w) :
    Reach ((M.restrict fun _ _ _ _ => True).reporting ρ) starts init w :=
  h.reporting_imp fun _ _ _ _ _ hstep => ⟨hstep, trivial⟩

/-- The scheduler, with reports. -/
def Schedule.reporting (S : Schedule M) (ρ : Type) : Schedule (M.reporting ρ) where
  answer i
    | .inl q, s => (S.answer i q s.store).map fun e => (e.1, s.sent i q e.1 e.2)
    | .inr x, s => some (.ok (), s.report i x)
  sound i q s r t h := by
    cases q with
    | inl q =>
      obtain ⟨⟨r', u⟩, hanswer, heq⟩ := Option.map_eq_some_iff.1 h
      cases heq
      exact ⟨u, S.sound i q s.store r' u hanswer, rfl⟩
    | inr x =>
      cases h
      exact ⟨rfl, rfl⟩

end

end Program
