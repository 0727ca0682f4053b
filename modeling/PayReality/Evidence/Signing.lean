import Mathlib.Data.List.Dedup
import PayReality.Store.Rows

/-!
# Signatures and the registry of signing keys

`domain/evidence/signing.py` and `signing_key_service.py`. ED25519 and SHA-256 are parameters: a
payload is signed with a private key and verified with the public key that belongs to it, and
what is signed is the payload's hash.

A payload is a JSON value as the JSONB column keeps it, which has no order of members.

A process start registers the key it is configured with. `keysAfter_active` is the state of the
registry after any run: one key is not retired, the one that was registered last.
-/

namespace PayReality

/-- SHA-256 of a canonical payload, and ED25519. -/
structure Crypto where
  /-- `payload_hash`. -/
  payloadHash : Json → String
  /-- `sign_payload`: the private key, the payload. -/
  sign : String → Json → String
  /-- `verify_payload`: the payload, the signature, the public key. -/
  verify : Json → String → String → Bool
  /-- `public_key_b64_from_signing_key_b64`. -/
  publicKey : String → String

/-- What is signed with a private key verifies with its public key. -/
def Crypto.Inverse (C : Crypto) : Prop :=
  ∀ key payload, C.verify payload (C.sign key payload) (C.publicKey key) = true

/-- The configured key: `evidence_signing_key_b64` and `evidence_signing_key_id`. -/
structure SigningSettings where
  signingKey : String
  keyId : String
  deriving DecidableEq, Repr

/-- `signing_keys`. -/
structure SigningKey where
  keyId : String
  publicKey : String
  retiredAt : Option Timestamp := none
  deriving DecidableEq, Repr

def SigningKey.active (k : SigningKey) : Bool := k.retiredAt.isNone

namespace SigningKeyService

/-- `db.get(SigningKey, key_id)`. -/
def getKey (keys : List SigningKey) (keyId : String) : Option SigningKey :=
  keys.find? fun k => k.keyId = keyId

/-- `UPDATE signing_keys SET retired_at = now WHERE retired_at IS NULL`. -/
def retire (now : Timestamp) (k : SigningKey) : SigningKey :=
  { k with retiredAt := k.retiredAt.or (some now) }

/-- `ensure_current_key_registered`. A mismatch is only logged. -/
def ensureCurrentKeyRegistered (keys : List SigningKey) (keyId publicKey : String)
    (now : Timestamp) : List SigningKey :=
  match getKey keys keyId with
  | some _ => keys
  | none => keys.map (retire now) ++ [{ keyId, publicKey }]

/-- `get_public_key_for_key_id`. -/
def getPublicKeyForKeyId (keys : List SigningKey) (keyId : String) : Option String :=
  (getKey keys keyId).map SigningKey.publicKey

end SigningKeyService

open SigningKeyService

/-- A payload as it is stored with its signature. -/
structure SignedPayload where
  payload : Json
  keyId : String
  signature : String

namespace EvidenceService

variable (C : Crypto)

/-- `sign_payload` under the configured key. -/
def signPayload (settings : SigningSettings) (payload : Json) : SignedPayload where
  payload
  keyId := settings.keyId
  signature := C.sign settings.signingKey payload

/-- The verdict of `verify_evidence`: the key is the registered one, else the configured one. -/
def verifyEvidence (settings : SigningSettings) (keys : List SigningKey) (e : SignedPayload) :
    Bool :=
  C.verify e.payload e.signature
    ((getPublicKeyForKeyId keys e.keyId).getD (C.publicKey settings.signingKey))

end EvidenceService

/-! ## Runs -/

/-- One process start with its configuration, or one record that the running process signs. -/
inductive KeyEvent where
  | start (settings : SigningSettings) (now : Timestamp)
  | sign (payload : Json)

/-- The registry, the configuration of the running process, and the records. -/
structure KeyState where
  keys : List SigningKey := []
  settings : Option SigningSettings := none
  records : List SignedPayload := []

namespace KeyState

variable (C : Crypto)

/-- Nothing is signed before the first start. -/
def step (s : KeyState) : KeyEvent → KeyState
  | .start settings now =>
    { s with
      keys := ensureCurrentKeyRegistered s.keys settings.keyId (C.publicKey settings.signingKey) now
      settings := some settings }
  | .sign payload =>
    match s.settings with
    | none => s
    | some settings =>
      { s with records := s.records ++ [EvidenceService.signPayload C settings payload] }

/-- The state after a list of events, from an empty registry. -/
def run (events : List KeyEvent) : KeyState := events.foldl (step C) {}

theorem run_append_singleton (events : List KeyEvent) (e : KeyEvent) :
    run C (events ++ [e]) = step C (run C events) e := by
  rw [run, List.foldl_append]
  rfl

end KeyState

/-- The configuration of a process start. -/
def KeyEvent.settings? : KeyEvent → Option SigningSettings
  | .start settings _ => some settings
  | .sign _ => none

def starts (events : List KeyEvent) : List SigningSettings := events.filterMap KeyEvent.settings?

/-- No key id is used with two keys. -/
def OneKeyPerId (events : List KeyEvent) : Prop :=
  ∀ a ∈ starts events, ∀ b ∈ starts events, a.keyId = b.keyId → a.signingKey = b.signingKey

/-- The key ids in the order of their first starts. -/
def keyIdsInOrder (events : List KeyEvent) : List String :=
  ((starts events).map SigningSettings.keyId).reverse.dedup.reverse

/-- Every record verifies in every later state, and after every start the registry has one key
that is not retired, the one of the running process. -/
structure KeysTruthful (C : Crypto) (events : List KeyEvent) : Prop where
  verifies : ∀ pre later, pre <+: later → later <+: events → ∀ r ∈ (KeyState.run C pre).records,
    ∀ settings, EvidenceService.verifyEvidence C settings (KeyState.run C later).keys r = true
  active : ∀ pre settings now, pre ++ [.start settings now] <+: events →
    (KeyState.run C (pre ++ [.start settings now])).keys.filter SigningKey.active =
      [{ keyId := settings.keyId, publicKey := C.publicKey settings.signingKey }]

/-- No start returns to a key id that a later one has superseded. -/
def NoReturn (events : List KeyEvent) : Prop :=
  ∀ pre settings now, pre ++ [.start settings now] <+: events →
    settings.keyId ∈ keyIdsInOrder pre → (keyIdsInOrder pre).getLast? = some settings.keyId

/-! ## The registry after a run -/

section Registry

variable {C : Crypto}

theorem getKey_eq_none {keys : List SigningKey} {keyId : String} :
    getKey keys keyId = none ↔ keyId ∉ keys.map SigningKey.keyId := by
  simp [getKey, List.find?_eq_none]

theorem getKey_append_of_some {keys more : List SigningKey} {keyId : String} {k : SigningKey}
    (h : getKey keys keyId = some k) : getKey (keys ++ more) keyId = some k := by
  rw [getKey] at h
  rw [getKey, List.find?_append, h, Option.some_or]

/-- Retirement changes no key. -/
theorem getPublicKey_map_retire (keys : List SigningKey) (keyId : String) (now : Timestamp) :
    getPublicKeyForKeyId (keys.map (retire now)) keyId = getPublicKeyForKeyId keys keyId := by
  rw [getPublicKeyForKeyId, getPublicKeyForKeyId, getKey, getKey, List.find?_map, Option.map_map]
  rfl

/-- A registered key stays what it is. -/
theorem getPublicKey_ensure {keys : List SigningKey} {keyId keyId' publicKey' key : String}
    {now : Timestamp} (h : getPublicKeyForKeyId keys keyId = some key) :
    getPublicKeyForKeyId (ensureCurrentKeyRegistered keys keyId' publicKey' now) keyId = some key := by
  unfold ensureCurrentKeyRegistered
  cases getKey keys keyId' with
  | some k => exact h
  | none =>
    rw [← getPublicKey_map_retire keys keyId now] at h
    obtain ⟨k, hk, rfl⟩ := Option.map_eq_some_iff.1 h
    rw [getPublicKeyForKeyId, getKey_append_of_some hk, Option.map_some]

theorem starts_append_start (events : List KeyEvent) (settings : SigningSettings) (now : Timestamp) :
    starts (events ++ [.start settings now]) = starts events ++ [settings] := by
  simp [starts, KeyEvent.settings?]

theorem starts_append_sign (events : List KeyEvent) (payload : Json) :
    starts (events ++ [.sign payload]) = starts events := by
  simp [starts, KeyEvent.settings?]

theorem keyIdsInOrder_append_start (events : List KeyEvent) (settings : SigningSettings)
    (now : Timestamp) :
    keyIdsInOrder (events ++ [.start settings now]) =
      if settings.keyId ∈ keyIdsInOrder events then keyIdsInOrder events
      else keyIdsInOrder events ++ [settings.keyId] := by
  have hmem : settings.keyId ∈ keyIdsInOrder events ↔
      settings.keyId ∈ ((starts events).map SigningSettings.keyId).reverse := by
    rw [keyIdsInOrder, List.mem_reverse, List.mem_dedup]
  have hlist : keyIdsInOrder (events ++ [.start settings now]) =
      (settings.keyId :: ((starts events).map SigningSettings.keyId).reverse).dedup.reverse := by
    rw [keyIdsInOrder, starts_append_start, List.map_append, List.map_singleton,
      List.reverse_append, List.reverse_singleton, List.singleton_append]
  by_cases h : settings.keyId ∈ keyIdsInOrder events
  · rw [hlist, if_pos h, List.dedup_cons_of_mem (hmem.1 h)]
    rfl
  · rw [hlist, if_neg h, List.dedup_cons_of_notMem (mt hmem.2 h), List.reverse_cons]
    rfl

/-- What a run has left. -/
structure KeyInv (C : Crypto) (events : List KeyEvent) (s : KeyState) : Prop where
  ids : s.keys.map SigningKey.keyId = keyIdsInOrder events
  keys : ∀ settings ∈ starts events,
    getPublicKeyForKeyId s.keys settings.keyId = some (C.publicKey settings.signingKey)
  /-- The key registered last is the one that is not retired. -/
  active : s.keys.filter SigningKey.active = s.keys.getLast?.toList
  settings : s.settings = (starts events).getLast?
  records : ∀ r ∈ s.records, ∃ settings ∈ starts events,
    r = EvidenceService.signPayload C settings r.payload

theorem KeyInv.register {events : List KeyEvent} {s : KeyState} (h : KeyInv C events s)
    (settings : SigningSettings) (now : Timestamp)
    (hone : ∀ a ∈ starts events, a.keyId = settings.keyId → a.signingKey = settings.signingKey) :
    KeyInv C (events ++ [.start settings now]) (s.step C (.start settings now)) := by
  have hold : ∀ a ∈ starts events, getPublicKeyForKeyId (s.step C (.start settings now)).keys
      a.keyId = some (C.publicKey a.signingKey) := fun a ha => getPublicKey_ensure (h.keys a ha)
  have hrecords : ∀ r ∈ s.records, ∃ a ∈ starts (events ++ [.start settings now]),
      r = EvidenceService.signPayload C a r.payload := by
    intro r hr
    obtain ⟨a, ha, hra⟩ := h.records r hr
    exact ⟨a, by rw [starts_append_start]; exact List.mem_append_left _ ha, hra⟩
  have hlast : some settings = (starts (events ++ [.start settings now])).getLast? := by
    rw [starts_append_start, List.getLast?_concat]
  have hcases : ∀ a ∈ starts (events ++ [.start settings now]), a ∈ starts events ∨ a = settings := by
    intro a ha
    rwa [starts_append_start, List.mem_append, List.mem_singleton] at ha
  have hids := keyIdsInOrder_append_start events settings now
  cases hget : getKey s.keys settings.keyId with
  | some k =>
    have hmem : settings.keyId ∈ keyIdsInOrder events := by
      rw [← h.ids]
      by_contra hn
      rw [getKey_eq_none.2 hn] at hget
      cases hget
    have hstep : (s.step C (.start settings now)).keys = s.keys := by
      simp [KeyState.step, ensureCurrentKeyRegistered, hget]
    rw [if_pos hmem] at hids
    refine ⟨by rw [hstep, hids, h.ids], fun a ha => ?_, by rw [hstep, h.active], hlast, hrecords⟩
    rcases hcases a ha with ha | rfl
    · exact hold a ha
    · -- the key id was started before, with the same key
      have hin : a.keyId ∈ (starts events).map SigningSettings.keyId := by
        rwa [keyIdsInOrder, List.mem_reverse, List.mem_dedup, List.mem_reverse] at hmem
      obtain ⟨b, hb, hba⟩ := List.mem_map.1 hin
      rw [← hba, ← hone b hb hba]
      exact hold b hb
  | none =>
    have hmem : settings.keyId ∉ keyIdsInOrder events := by
      rw [← h.ids]
      exact getKey_eq_none.1 hget
    have hstep : (s.step C (.start settings now)).keys =
        s.keys.map (retire now) ++
          [{ keyId := settings.keyId, publicKey := C.publicKey settings.signingKey }] := by
      simp [KeyState.step, ensureCurrentKeyRegistered, hget]
    have hretired : (s.keys.map (retire now)).filter SigningKey.active = [] := by
      rw [List.filter_eq_nil_iff]
      intro k hk
      obtain ⟨k', -, rfl⟩ := List.mem_map.1 hk
      cases hr : k'.retiredAt <;> simp [SigningKey.active, retire, hr]
    rw [if_neg hmem] at hids
    refine ⟨?_, fun a ha => ?_, ?_, hlast, hrecords⟩
    · rw [hstep, hids, List.map_append, List.map_map, ← h.ids]
      rfl
    · rcases hcases a ha with ha | rfl
      · exact hold a ha
      · have hnone : getKey (s.keys.map (retire now)) a.keyId = none := by
          rw [getKey_eq_none, List.map_map]
          rw [← h.ids] at hmem
          exact hmem
        rw [getKey] at hnone
        rw [hstep, getPublicKeyForKeyId, getKey, List.find?_append, hnone]
        simp
    · rw [hstep, List.filter_append, hretired, List.getLast?_concat]
      rfl

theorem KeyInv.sign {events : List KeyEvent} {s : KeyState} (h : KeyInv C events s)
    (payload : Json) : KeyInv C (events ++ [.sign payload]) (s.step C (.sign payload)) := by
  have hids : keyIdsInOrder (events ++ [.sign payload]) = keyIdsInOrder events := by
    rw [keyIdsInOrder, keyIdsInOrder, starts_append_sign]
  cases hs : s.settings with
  | none =>
    have hstep : s.step C (.sign payload) = s := by simp [KeyState.step, hs]
    rw [hstep]
    exact ⟨hids ▸ h.ids, by rw [starts_append_sign]; exact h.keys, h.active,
      by rw [starts_append_sign]; exact h.settings, by rw [starts_append_sign]; exact h.records⟩
  | some settings =>
    have hstep : s.step C (.sign payload) =
        { s with records := s.records ++ [EvidenceService.signPayload C settings payload] } := by
      simp [KeyState.step, hs]
    rw [hstep]
    refine ⟨hids ▸ h.ids, by rw [starts_append_sign]; exact h.keys, h.active,
      by rw [starts_append_sign]; exact h.settings, fun r hr => ?_⟩
    rw [starts_append_sign]
    rcases List.mem_append.1 hr with hr | hr
    · exact h.records r hr
    · obtain rfl := List.mem_singleton.1 hr
      refine ⟨settings, ?_, rfl⟩
      exact List.mem_of_mem_getLast? (by rw [← h.settings, hs]; rfl)

theorem OneKeyPerId.of_prefix {pre events : List KeyEvent} (h : OneKeyPerId events)
    (hpre : pre <+: events) : OneKeyPerId pre :=
  fun a ha b hb => h a ((hpre.sublist.filterMap _).subset ha) b ((hpre.sublist.filterMap _).subset hb)

theorem KeyInv.run {events : List KeyEvent} (h : OneKeyPerId events) :
    KeyInv C events (KeyState.run C events) := by
  induction events using List.reverseRecOn with
  | nil => exact ⟨rfl, by simp [starts], rfl, rfl, by simp [KeyState.run]⟩
  | append_singleton events e ih =>
    have ih := ih (h.of_prefix (List.prefix_append _ _))
    rw [KeyState.run_append_singleton]
    cases e with
    | start settings now =>
      refine ih.register settings now fun a ha hk => ?_
      rw [OneKeyPerId, starts_append_start] at h
      exact h a (List.mem_append_left _ ha) settings (by simp) hk
    | sign payload => exact ih.sign payload

/-- Every record verifies, whatever the running process is configured with. -/
theorem KeyInv.verifies {events later : List KeyEvent} (h : KeyInv C events (KeyState.run C events))
    (hlater : KeyInv C later (KeyState.run C later)) (hpre : events <+: later) (hC : C.Inverse)
    {r : SignedPayload} (hr : r ∈ (KeyState.run C events).records) (settings : SigningSettings) :
    EvidenceService.verifyEvidence C settings (KeyState.run C later).keys r = true := by
  obtain ⟨a, ha, hra⟩ := h.records r hr
  rw [hra]
  have hkey := hlater.keys a ((hpre.sublist.filterMap _).subset ha)
  rw [EvidenceService.verifyEvidence, EvidenceService.signPayload, hkey]
  exact hC _ _

end Registry

/-- **The registry is truthful as long as no start returns to a superseded key.** -/
theorem keyRotation {C : Crypto} {events : List KeyEvent} (hC : C.Inverse)
    (hone : OneKeyPerId events) : KeysTruthful C events ↔ NoReturn events := by
  have hinv : ∀ pre, pre <+: events → KeyInv C pre (KeyState.run C pre) :=
    fun pre hpre => KeyInv.run (hone.of_prefix hpre)
  constructor
  · intro h pre settings now hpre hmem
    have hactive := h.active pre settings now hpre
    have hids := (hinv _ hpre).ids
    rw [(hinv _ hpre).active] at hactive
    rw [keyIdsInOrder_append_start, if_pos hmem] at hids
    rw [← hids, List.getLast?_map]
    cases hl : (KeyState.run C (pre ++ [.start settings now])).keys.getLast? with
    | none => simp [hl] at hactive
    | some k =>
      rw [hl] at hactive
      simp only [Option.toList_some, List.cons.injEq, and_true] at hactive
      rw [hactive]
      rfl
  · intro h
    refine ⟨fun pre later hpre hlater r hr settings => (hinv pre (hpre.trans hlater)).verifies
      (hinv later hlater) hpre hC hr settings, fun pre settings now hpre => ?_⟩
    have hinv' := hinv _ hpre
    have hids := hinv'.ids
    -- the key registered last has the id of the start
    have hlast : (KeyState.run C (pre ++ [.start settings now])).keys.getLast?.map
        SigningKey.keyId = some settings.keyId := by
      rw [← List.getLast?_map, hids, keyIdsInOrder_append_start]
      by_cases hmem : settings.keyId ∈ keyIdsInOrder pre
      · rw [if_pos hmem]
        exact h pre settings now hpre hmem
      · rw [if_neg hmem, List.getLast?_concat]
    obtain ⟨k, hk, hkid⟩ := Option.map_eq_some_iff.1 hlast
    have hact : k ∈ (KeyState.run C (pre ++ [.start settings now])).keys.filter SigningKey.active := by
      rw [hinv'.active, hk]
      simp
    have hkey := hinv'.keys settings (by rw [starts_append_start]; simp)
    obtain ⟨k', hk', hkey⟩ := Option.map_eq_some_iff.1 hkey
    have hnodup : ((KeyState.run C (pre ++ [.start settings now])).keys.map SigningKey.keyId).Nodup := by
      rw [hids, keyIdsInOrder, List.nodup_reverse]
      exact List.nodup_dedup _
    have hsame : k = k' := by
      refine List.inj_on_of_nodup_map hnodup (List.mem_filter.1 hact).1
        (List.mem_of_find?_eq_some hk') ?_
      have := List.find?_some hk'
      rw [hkid]
      exact (of_decide_eq_true this).symm
    have hretired : k.retiredAt = none := by
      simpa [SigningKey.active] using (List.mem_filter.1 hact).2
    rw [hinv'.active, hk, Option.toList_some, List.cons.injEq]
    refine ⟨?_, rfl⟩
    subst hsame
    cases k with
    | mk keyId publicKey retiredAt =>
      dsimp only at hkid hkey hretired
      rw [hkid, hkey, hretired]

/-- Keys that are their own signatures. -/
def plainCrypto : Crypto where
  payloadHash payload := match payload.get? "decision_id" with
    | some (.str id) => id
    | _ => ""
  sign key _ := key
  verify _ signature publicKey := signature = publicKey
  publicKey key := key

theorem plainCrypto_inverse : plainCrypto.Inverse := fun _ _ => decide_eq_true rfl

/-- Two keys, each of them used once. -/
theorem keyRotation_once :
    let events := [KeyEvent.start ⟨"a", "key_1"⟩ 0, .sign .null, .start ⟨"b", "key_2"⟩ 1]
    KeysTruthful plainCrypto events ↔ NoReturn events :=
  keyRotation plainCrypto_inverse (by unfold OneKeyPerId; decide)

/-- A process that goes back to its first key signs with one that stays retired. -/
theorem keyRotation_return :
    ∃ (C : Crypto) (events : List KeyEvent), C.Inverse ∧ OneKeyPerId events ∧
      ¬ KeysTruthful C events := by
  refine ⟨plainCrypto, [.start ⟨"a", "key_1"⟩ 0, .start ⟨"b", "key_2"⟩ 1, .start ⟨"a", "key_1"⟩ 2],
    plainCrypto_inverse, by unfold OneKeyPerId; decide, fun h => ?_⟩
  have := h.active [.start ⟨"a", "key_1"⟩ 0, .start ⟨"b", "key_2"⟩ 1] ⟨"a", "key_1"⟩ 2
    List.prefix_rfl
  revert this
  decide

end PayReality
