import PayReality.Encoding

/-!
# Values that are known by their text

Two values with one canonical text differ at most in the order of the members of dicts, so a value
without dicts is the only one with its text (`Rigid`).
-/

namespace PayReality.Json

/-- A value with no parts. -/
def scalar : Json → Bool
  | .arr _ | .obj _ => false
  | _ => true

/-- No other value has the same text. -/
def Rigid (v : Json) : Prop := ∀ u, u.stableRepr = v.stableRepr → u = v

theorem rigid_scalar {v : Json} (hv : v.scalar = true) : v.Rigid := by
  intro u h
  cases v with
  | arr | obj => cases hv
  | bool b =>
    cases u <;> simp [stableRepr, token_mk_inj] at h
    next c => cases b <;> cases c <;> simp at h ⊢
  | _ =>
    cases u <;> simp [stableRepr, token_mk_inj] at h
    all_goals simp [h]

@[simp]
theorem rigid_str (s : String) : (str s).Rigid := rigid_scalar rfl

@[simp]
theorem rigid_bool (b : Bool) : (bool b).Rigid := rigid_scalar rfl

theorem rigid_arr {xs : List Json} (hxs : ∀ x ∈ xs, x.Rigid) : (arr xs).Rigid := by
  intro u h
  cases u with
  | arr ys =>
    have := map_eq_of_map_eq (g := id) (elements_of_stableRepr h.symm) fun x hx y hxy =>
      (hxs x hx y hxy.symm).symm
    simpa using this.symm
  | _ => simp [stableRepr, token_mk_inj] at h

theorem rigid_texts (ss : List String) : (arr (ss.map .str)).Rigid := by
  refine rigid_arr ?_
  intro x hx
  obtain ⟨s, -, rfl⟩ := List.mem_map.1 hx
  exact rigid_scalar rfl

/-- A member of a value with the text of a dict. -/
theorem get?_of_stableRepr {x y v : Json} (h : x.stableRepr = y.stableRepr) {k : String}
    (hy : y.get? k = some v) : ∃ u, x.get? k = some u ∧ u.stableRepr = v.stableRepr := by
  have hk := stableRepr_get? h k
  rw [hy] at hk
  exact Option.map_eq_some_iff.1 hk

theorem get?_rigid {x y v : Json} (h : x.stableRepr = y.stableRepr) (k : String)
    (hy : y.get? k = some v) (hv : v.Rigid) : x.get? k = some v := by
  obtain ⟨u, hu, htext⟩ := get?_of_stableRepr h hy
  rw [hu, hv u htext]

theorem get?_scalar {x y v : Json} (h : x.stableRepr = y.stableRepr) (k : String)
    (hy : y.get? k = some v) (hv : v.scalar = true) : x.get? k = some v :=
  get?_rigid h k hy (rigid_scalar hv)

/-- A dict without dicts in it is known by its text up to the order of its members. -/
theorem get?_eq_of_rigid {x : Json} {kvs : List (String × Json)} (hkvs : ∀ e ∈ kvs, e.2.Rigid)
    (h : x.stableRepr = (obj kvs).stableRepr) (k : String) : x.get? k = (obj kvs).get? k := by
  cases hk : (obj kvs).get? k with
  | some v => exact get?_rigid h k hk (hkvs _ (mem_of_get? hk))
  | none =>
    have := stableRepr_get? h k
    rw [hk] at this
    simpa using this

end PayReality.Json
