import Mathlib.Data.List.Basic
import Mathlib.Algebra.Order.Group.Int
import PayReality.Python
import PayReality.Store.Rows

/-!
# The rate limit

`security.check_rate_limit` keeps, for each client, the times of the requests that it has allowed, and
forgets from the front those that have left the window. The clock is monotonic.

* `rate_limit_exact`: a request is refused exactly where the limit was allowed to its client within the
  window, although most times are forgotten by then.
* `rate_limit_bound`: no more are allowed in any window.
-/

namespace PayReality

/-! ## The check -/

/-- A `defaultdict(deque)`. -/
abbrev RequestLog := String → List Timestamp

/-- The time has left the window at `now`. -/
def hasLeft (windowSeconds now t : Timestamp) : Bool := windowSeconds < now - t

/-- `check_rate_limit` at the time `now`: whether the request is allowed, and the logs. -/
def checkRateLimit (key : String) (logStore : RequestLog) (windowSeconds : Timestamp)
    (maxRequests : ℕ) (now : Timestamp) : Bool × RequestLog :=
  let log := (logStore key).dropWhile (hasLeft windowSeconds now)
  if maxRequests ≤ log.length then (false, Function.update logStore key log)
  else (true, Function.update logStore key (log ++ [now]))

/-- A request of a client. -/
structure ClientRequest where
  key : String
  now : Timestamp
  deriving DecidableEq

/-- The logs and the requests that were allowed, after one request more. -/
def limitOne (windowSeconds : Timestamp) (maxRequests : ℕ) (s : RequestLog × List ClientRequest)
    (r : ClientRequest) : RequestLog × List ClientRequest :=
  let checked := checkRateLimit r.key s.1 windowSeconds maxRequests r.now
  (checked.2, if checked.1 then s.2 ++ [r] else s.2)

/-- The requests one after the other. -/
def limitAll (windowSeconds : Timestamp) (maxRequests : ℕ) (rs : List ClientRequest) :
    RequestLog × List ClientRequest :=
  rs.foldl (limitOne windowSeconds maxRequests) (fun _ => [], [])

/-- The request is of the client and within the window that ends at `now`. -/
def InWindow (windowSeconds : Timestamp) (key : String) (now : Timestamp) (r : ClientRequest) : Bool :=
  r.key = key ∧ now - r.now ≤ windowSeconds

/-! ## Forgetting from the front -/

section

variable {α : Type} {p q : α → Bool}

/-- What is forgotten first would be forgotten anyway. -/
theorem dropWhile_dropWhile_append (h : ∀ a, q a = true → p a = true) (l r : List α) :
    (l.dropWhile q ++ r).dropWhile p = (l ++ r).dropWhile p := by
  induction l with
  | nil => rfl
  | cons a l ih =>
    by_cases hq : q a = true
    · simp [hq, h a hq, ih]
    · simp [hq]

/-- Where nothing that is left comes before something that stays. -/
theorem dropWhile_eq_filter {l : List α} (h : l.Pairwise fun a b => p b = true → p a = true) :
    l.dropWhile p = l.filter fun a => !p a := by
  induction l with
  | nil => rfl
  | cons a l ih =>
    obtain ⟨ha, hl⟩ := List.pairwise_cons.1 h
    by_cases hp : p a = true
    · simp [hp, ih hl]
    · have hall : ∀ b ∈ l, p b = false := fun b hb => by
        by_contra hb'
        exact hp (ha b hb (by simpa using hb'))
      simp only [List.dropWhile_cons, hp, Bool.false_eq_true, if_false, List.filter_cons,
        Bool.not_false, if_true]
      rw [List.filter_eq_self.2 fun b hb => by simp [hall b hb]]

end

/-! ## Runs -/

section

variable {windowSeconds : Timestamp} {maxRequests : ℕ} {rs : List ClientRequest} {r : ClientRequest}

theorem hasLeft_mono {now now' t : Timestamp} (h : now ≤ now') (ht : hasLeft windowSeconds now t = true) :
    hasLeft windowSeconds now' t = true := by
  simp only [hasLeft, decide_eq_true_eq] at ht ⊢
  exact lt_of_lt_of_le ht (sub_le_sub_right h t)

theorem limitAll_append :
    limitAll windowSeconds maxRequests (rs ++ [r]) =
      limitOne windowSeconds maxRequests (limitAll windowSeconds maxRequests rs) r := by
  simp [limitAll]

/-- What is allowed was requested, in this order. -/
theorem allowed_sublist : (limitAll windowSeconds maxRequests rs).2.Sublist rs := by
  induction rs using List.reverseRecOn with
  | nil => exact List.Sublist.refl _
  | append_singleton rs r ih =>
    rw [limitAll_append]
    unfold limitOne
    dsimp only
    split
    · exact ih.append (List.Sublist.refl _)
    · exact ih.trans (List.sublist_append_left _ _)

/-- The times at which a client was allowed something. -/
def allowedTimes (allowed : List ClientRequest) (key : String) : List Timestamp :=
  (allowed.filter fun r => r.key = key).map ClientRequest.now

/-- A log has forgotten only what has left the window. -/
theorem log_eq (hrs : rs.Pairwise fun a b => a.now ≤ b.now) (key : String) {now : Timestamp}
    (hnow : ∀ r ∈ rs, r.now ≤ now) :
    ((limitAll windowSeconds maxRequests rs).1 key).dropWhile (hasLeft windowSeconds now) =
      (allowedTimes (limitAll windowSeconds maxRequests rs).2 key).dropWhile
        (hasLeft windowSeconds now) := by
  induction rs using List.reverseRecOn generalizing now with
  | nil => rfl
  | append_singleton rs r ih =>
    obtain ⟨hrs, -, hlast⟩ := List.pairwise_append.1 hrs
    have hr : r.now ≤ now := hnow r (by simp)
    have hbefore : ∀ a ∈ rs, a.now ≤ r.now := fun a ha => hlast a ha r (List.mem_singleton_self r)
    have ih' := ih hrs hbefore
    have hmono (t : Timestamp) (ht : hasLeft windowSeconds r.now t = true) :
        hasLeft windowSeconds now t = true := hasLeft_mono hr ht
    rw [limitAll_append]
    unfold limitOne checkRateLimit
    dsimp only
    by_cases hkey : r.key = key
    · subst hkey
      by_cases hfull : maxRequests ≤
        (((limitAll windowSeconds maxRequests rs).1 r.key).dropWhile (hasLeft windowSeconds r.now)).length
      · simp only [hfull, if_true, Function.update_self, Bool.false_eq_true, if_false]
        have h := dropWhile_dropWhile_append hmono ((limitAll windowSeconds maxRequests rs).1 r.key) []
        simp only [List.append_nil] at h
        rw [h]
        exact ih hrs fun a ha => (hbefore a ha).trans hr
      · simp only [hfull, if_false, Function.update_self, if_true, allowedTimes, List.filter_append,
          List.map_append, List.filter_singleton, decide_true]
        rw [ih', dropWhile_dropWhile_append hmono]
        rfl
    · have hother : key ≠ r.key := fun h => hkey h.symm
      have hold := ih hrs fun a ha => (hbefore a ha).trans hr
      split <;> simp [Function.update_of_ne hother, allowedTimes, hkey] <;> exact hold

/-- What a log holds when a request of the client is checked. -/
theorem log_length (hrs : (rs ++ [r]).Pairwise fun a b => a.now ≤ b.now) :
    (((limitAll windowSeconds maxRequests rs).1 r.key).dropWhile (hasLeft windowSeconds r.now)).length =
      (limitAll windowSeconds maxRequests rs).2.countP (InWindow windowSeconds r.key r.now) := by
  obtain ⟨hrs, -, hlast⟩ := List.pairwise_append.1 hrs
  rw [log_eq hrs r.key fun a ha => hlast a ha r (List.mem_singleton_self r), dropWhile_eq_filter]
  · unfold allowedTimes
    rw [List.filter_map, List.length_map, List.filter_filter, ← List.countP_eq_length_filter]
    refine List.countP_congr fun a _ => ?_
    simp [InWindow, hasLeft, and_comm]
  · have hallowed : (limitAll windowSeconds maxRequests rs).2.Pairwise fun a b => a.now ≤ b.now :=
      hrs.sublist allowed_sublist
    refine List.Pairwise.map _ (fun a b hab hleft => ?_) (hallowed.sublist List.filter_sublist)
    simp only [hasLeft, decide_eq_true_eq] at hleft ⊢
    exact lt_of_lt_of_le hleft (sub_le_sub_left hab r.now)

/-- **A request is allowed if and only if fewer than the limit were allowed to its client within the
window.** -/
theorem rate_limit_exact (hrs : (rs ++ [r]).Pairwise fun a b => a.now ≤ b.now) :
    (checkRateLimit r.key (limitAll windowSeconds maxRequests rs).1 windowSeconds maxRequests r.now).1 =
        true ↔
      (limitAll windowSeconds maxRequests rs).2.countP (InWindow windowSeconds r.key r.now) <
        maxRequests := by
  unfold checkRateLimit
  dsimp only
  rw [log_length hrs]
  by_cases hfull : maxRequests ≤
    (limitAll windowSeconds maxRequests rs).2.countP (InWindow windowSeconds r.key r.now)
  · simp [hfull]
  · simp [hfull, Nat.lt_of_not_le hfull]

/-- **In no window are more requests of a client allowed than the limit.** -/
theorem rate_limit_bound (hrs : rs.Pairwise fun a b => a.now ≤ b.now) (key : String)
    (start : Timestamp) :
    (limitAll windowSeconds maxRequests rs).2.countP
      (fun r => r.key = key ∧ start ≤ r.now ∧ r.now ≤ start + windowSeconds) ≤ maxRequests := by
  induction rs using List.reverseRecOn with
  | nil => exact Nat.zero_le _
  | append_singleton rs r ih =>
    have hbefore := ih (List.pairwise_append.1 hrs).1
    rw [limitAll_append]
    unfold limitOne
    dsimp only
    split
    · next hallowed =>
      have hfewer := (rate_limit_exact hrs).1 hallowed
      rw [List.countP_append, List.countP_singleton]
      split
      · next hwindow =>
        -- what else is in the window is in the window that ends at the request
        simp only [decide_eq_true_eq] at hwindow
        obtain ⟨hkey, hstart, hend⟩ := hwindow
        refine lt_of_le_of_lt (List.countP_mono_left fun a _ ha => ?_) hfewer
        simp only [decide_eq_true_eq] at ha
        simp only [InWindow, decide_eq_true_eq]
        refine ⟨ha.1.trans hkey.symm, ?_⟩
        exact sub_le_iff_le_add'.2 (hend.trans (add_le_add_left ha.2.1 _))
      · exact hbefore
    · exact hbefore

end

/-! ### Two clients -/

def burst : List ClientRequest := [⟨"one", 0⟩, ⟨"one", 10⟩, ⟨"two", 20⟩, ⟨"one", 30⟩]

theorem rate_limit_exact_burst :
    (checkRateLimit "one" (limitAll 60 2 burst).1 60 2 65).1 = true ∧
    ((checkRateLimit "one" (limitAll 60 2 burst).1 60 2 65).1 = true ↔
      (limitAll 60 2 burst).2.countP (InWindow 60 "one" 65) < 2) :=
  ⟨by decide, rate_limit_exact (r := ⟨"one", 65⟩) (by decide)⟩

theorem rate_limit_bound_burst :
    (limitAll 60 2 burst).2.length = 3 ∧ ∀ key start,
      (limitAll 60 2 burst).2.countP
        (fun r => r.key = key ∧ start ≤ r.now ∧ r.now ≤ start + 60) ≤ 2 :=
  ⟨by decide, rate_limit_bound (by decide)⟩

end PayReality
