import PayReality.Identity.CertificateRotation
import PayReality.Sdk.HttpClient

/-!
# Rotating an agent's key

`Agent.rotate_keys`: a new key pair is made, its public key is sent, and the agent takes the new private
key with the certificate that it is answered. The request is tried again where it is not answered, and
every attempt that the server gets is a rotation of its own.

**Main result** `rotateKeys_holds_iff`: the agent holds the key to its active certificate exactly where no
rotation is committed, or the last attempt is answered. Otherwise the server has a certificate whose
private key is gone.
-/

namespace PayReality

open Sdk

/-! ## The keys -/

namespace Sdk

/-- Ed25519, and the texts of its keys in base64. -/
structure SigningKeys where
  publicKeyFromPrivate : String → String
  base64 : ∀ privateKey, ':' ∉ (publicKeyFromPrivate privateKey).toList

/-- What `generate_keypair` returns. -/
structure KeyPair (K : SigningKeys) where
  privateKeyB64 : String
  publicKeyB64 : String
  derived : publicKeyB64 = K.publicKeyFromPrivate privateKeyB64

def encodePublicKeyForWire (publicKeyB64 : String) : String := "ed25519:base64:" ++ publicKeyB64

end Sdk

/-- `public_key.split(":")[-1]`, which the server decodes. -/
def lastPart (publicKey : String) : List Char :=
  (publicKey.toList.reverse.takeWhile (· ≠ ':')).reverse

theorem lastPart_wire {publicKeyB64 : String} (h : ':' ∉ publicKeyB64.toList) :
    lastPart (encodePublicKeyForWire publicKeyB64) = publicKeyB64.toList := by
  have hwire : (encodePublicKeyForWire publicKeyB64).toList =
      "ed25519:base64".toList ++ ':' :: publicKeyB64.toList := by
    simp [encodePublicKeyForWire]
  have hall : ∀ c ∈ publicKeyB64.toList.reverse, decide (c ≠ ':') = true := by
    intro c hc
    simp only [decide_eq_true_eq]
    rintro rfl
    exact h (List.mem_reverse.1 hc)
  rw [lastPart, hwire, List.reverse_append, List.reverse_cons, List.append_assoc,
    List.takeWhile_append_of_pos hall]
  simp

/-! ## The client -/

namespace Sdk

/-- `models.RegisteredAgent`. -/
structure RegisteredAgent where
  agentId : Uuid
  certificateId : Json
  principalId : String
  principalName : String
  name : String
  status : String

/-- The records of a `CredentialStore`, by public key. -/
abbrev CredentialStore := List (String × RegisteredAgent)

namespace CredentialStore

def save (data : CredentialStore) (publicKeyB64 : String) (record : RegisteredAgent) : CredentialStore :=
  if data.any fun e => e.1 = publicKeyB64 then
    data.map fun e => if e.1 = publicKeyB64 then (publicKeyB64, record) else e
  else data ++ [(publicKeyB64, record)]

def delete (data : CredentialStore) (publicKeyB64 : String) : CredentialStore :=
  data.filter fun e => e.1 ≠ publicKeyB64

end CredentialStore

/-- What an `Agent` holds. -/
structure AgentObject where
  privateKey : String
  identity : Option RegisteredAgent
  store : CredentialStore

inductive RotationError where
  | configurationError (message : String)
  | sdk (e : SdkError)

/-- The rest of `rotate_keys`, of what the request returns. -/
def AgentObject.install {K : SigningKeys} (A : AgentObject) (identity : RegisteredAgent)
    (newKeypair : KeyPair K) (response : Except SdkError Json) :
    Except RotationError RegisteredAgent × AgentObject :=
  match response >>= fun v => subscript v "id" with
  | .error e => (.error (.sdk e), A)
  | .ok id =>
    let newIdentity := { identity with certificateId := id }
    (.ok newIdentity,
      { privateKey := newKeypair.privateKeyB64
        identity := some newIdentity
        store := (A.store.save newKeypair.publicKeyB64 newIdentity).delete
          (K.publicKeyFromPrivate A.privateKey) })

/-! ## Attempts -/

/-- What the client sees of an attempt that it has no answer of. -/
structure Failure where
  exchange : Exchange
  failed : ∀ r, exchange = .response r → 300 ≤ r.statusCode

/-- What becomes of one attempt. -/
inductive RotationAttempt where
  /-- The request does not get to the service, or the service fails before its commit. -/
  | lost (seen : Failure)
  /-- The service fails behind its commit, or its response is lost. -/
  | unanswered (source : IdSource) (seen : Failure)
  | answered (source : IdSource)

namespace RotationAttempt

/-- The service gets as far as its commit, if it takes the request. -/
def commits : RotationAttempt → Bool
  | .lost _ => false
  | .unanswered _ _ | .answered _ => true

def isAnswered : RotationAttempt → Bool
  | .answered _ => true
  | _ => false

/-- The client tries again, if it may. -/
def retried : RotationAttempt → Bool
  | .lost seen | .unanswered _ seen => seen.exchange.retryable
  | .answered _ => false

end RotationAttempt

section

variable (P : Platform) (agentId : Uuid) (newPublicKey : String)

/-- `CertificateResponse`, without its times. -/
def certificateBody (certificateId : Uuid) (t : AgentTables) : Json :=
  .obj [("id", .str (P.uuidText certificateId)), ("agent_id", .str (P.uuidText agentId)),
    ("status", .str "active"), ("public_key", .str (t.publicKey certificateId))]

/-- `POST /v1/agents/{agent_id}/rotate`. -/
def AgentsRouter.rotateCertificate : Except PyError (Uuid × AgentTables) → HttpResponse
  | .ok (certificateId, t) => ⟨200, .json (certificateBody P agentId certificateId t)⟩
  | .error .agentNotFound => httpException 404 "agent_not_found"
  | .error (.agentInvalidTransition fromStatus action) => httpException 409
      ("invalid_transition: cannot " ++ action ++ " agent from status '" ++ fromStatus ++ "'")
  | .error .noActiveCertificate => httpException 409 "no_active_certificate_to_rotate"
  | .error _ => internalServerError

/-- What is committed of a result. -/
def committed (t : AgentTables) : Except PyError (Uuid × AgentTables) → AgentTables
  | .ok (_, t') => t'
  | .error _ => t

/-- One attempt at the server, and what the client sees of it. -/
def serve (t : AgentTables) : RotationAttempt → AgentTables × Exchange
  | .lost seen => (t, seen.exchange)
  | .unanswered source seen =>
    (committed t (t.rotateCertificate agentId source newPublicKey), seen.exchange)
  | .answered source =>
    let result := t.rotateCertificate agentId source newPublicKey
    (committed t result, .response (AgentsRouter.rotateCertificate P agentId result))

variable (attempts : ℕ → RotationAttempt) (t : AgentTables)

/-- The server behind so many attempts. -/
def serverAfter : ℕ → AgentTables
  | 0 => t
  | k + 1 => (serve P agentId newPublicKey (serverAfter k) (attempts k)).1

def exchangeAt (k : ℕ) : Exchange :=
  (serve P agentId newPublicKey (serverAfter P agentId newPublicKey attempts t k) (attempts k)).2

/-- The attempt that ends a request which begins with attempt `k` and may be retried so often. -/
def lastAttempt (retried : ℕ → Bool) : ℕ → ℕ → ℕ
  | 0, k => k
  | left + 1, k => if retried k then lastAttempt retried left (k + 1) else k

/-- `Agent.rotate_keys`, and the server behind it. -/
def AgentObject.rotateKeys {K : SigningKeys} (A : AgentObject) (maxRetries : ℕ)
    (newKeypair : KeyPair K) :
    (Except RotationError RegisteredAgent × AgentObject) × AgentTables :=
  match A.identity with
  | none => ((.error (.configurationError
      "This Agent has no registered identity yet. Call agent.register(...) first."), A), t)
  | some identity =>
    let newPublicKey := encodePublicKeyForWire newKeypair.publicKeyB64
    let exchange := exchangeAt P identity.agentId newPublicKey attempts t
    let last := lastAttempt (fun k => (exchange k).retryable) maxRetries 0
    (A.install identity newKeypair (HttpClient.request P maxRetries exchange),
      serverAfter P identity.agentId newPublicKey attempts t (last + 1))

end

/-! ## What a call leaves -/

section

variable {P : Platform} {agentId : Uuid} {newPublicKey : String} {attempts : ℕ → RotationAttempt}
  {t : AgentTables} {a : RotationAttempt}

theorem requestFrom_eq_settle {maxRetries : ℕ} {exchange : ℕ → Exchange} (left k : ℕ)
    (h : k + left = maxRetries) :
    HttpClient.requestFrom P maxRetries exchange (left + 1) k =
      HttpClient.settle P (exchange (lastAttempt (fun k => (exchange k).retryable) left k)) := by
  induction left generalizing k with
  | zero =>
    rw [HttpClient.requestFrom_succ, if_neg (by omega)]
    rfl
  | succ left ih =>
    rw [HttpClient.requestFrom_succ, lastAttempt]
    by_cases hretry : (exchange k).retryable = true
    · rw [if_pos ⟨hretry, by omega⟩, if_pos hretry]
      exact ih (k + 1) (by omega)
    · rw [if_neg (by simp [hretry]), if_neg hretry]

/-- What the request returns is what its last attempt comes to. -/
theorem request_eq_settle (P : Platform) (maxRetries : ℕ) (exchange : ℕ → Exchange) :
    HttpClient.request P maxRetries exchange =
      HttpClient.settle P (exchange (lastAttempt (fun k => (exchange k).retryable) maxRetries 0)) :=
  requestFrom_eq_settle maxRetries 0 (Nat.zero_add _)

theorem settle_failure (P : Platform) (seen : Failure) :
    ∃ e, HttpClient.settle P seen.exchange = .error e := by
  cases hseen : seen.exchange with
  | raised connection => exact ⟨_, rfl⟩
  | response r =>
    have hstatus := seen.failed r hseen
    rw [HttpClient.settle, if_neg (by omega)]
    exact ⟨_, rfl⟩

/-- A refusal is an answer that is not tried again, and raised. -/
theorem refusal_response (P : Platform) (agentId : Uuid) {e : PyError} (h : AgentTables.Refusal e) :
    (Exchange.response (AgentsRouter.rotateCertificate P agentId (.error e))).retryable = false ∧
    ∃ e', HttpClient.settle P (.response (AgentsRouter.rotateCertificate P agentId (.error e))) =
      .error e' := by
  rcases h with rfl | ⟨fromStatus, rfl⟩ | rfl
  · exact ⟨rfl, _, rfl⟩
  · exact ⟨rfl, _, rfl⟩
  · exact ⟨rfl, _, rfl⟩

theorem serve_of_not_commits (h : a.commits = false) :
    (serve P agentId newPublicKey t a).1 = t := by
  cases a with
  | lost seen => rfl
  | unanswered source seen => cases h
  | answered source => cases h

theorem serve_of_not_rotatable (h : ¬ t.Rotatable agentId) :
    (serve P agentId newPublicKey t a).1 = t := by
  cases a with
  | lost seen => rfl
  | unanswered source seen =>
    obtain ⟨e, he, -⟩ := AgentTables.rotateCertificate_of_not_rotatable h source newPublicKey
    simp only [serve, he, committed]
  | answered source =>
    obtain ⟨e, he, -⟩ := AgentTables.rotateCertificate_of_not_rotatable h source newPublicKey
    simp only [serve, he, committed]

variable (P newPublicKey) in
theorem serve_of_commits (h : t.Rotatable agentId) (ha : a.commits = true) :
    ∃ new, t.Renews agentId newPublicKey new (serve P agentId newPublicKey t a).1 := by
  cases a with
  | lost seen => cases ha
  | unanswered source seen =>
    obtain ⟨new, t', hok, hrenews⟩ := AgentTables.rotateCertificate_of_rotatable h source newPublicKey
    refine ⟨new, ?_⟩
    simpa only [serve, hok, committed] using hrenews
  | answered source =>
    obtain ⟨new, t', hok, hrenews⟩ := AgentTables.rotateCertificate_of_rotatable h source newPublicKey
    refine ⟨new, ?_⟩
    simpa only [serve, hok, committed] using hrenews

theorem serverAfter_of_not_commits {k : ℕ} (h : ∀ j < k, (attempts j).commits = false) :
    serverAfter P agentId newPublicKey attempts t k = t := by
  induction k with
  | zero => rfl
  | succ k ih =>
    rw [serverAfter, ih fun j hj => h j (by omega)]
    exact serve_of_not_commits (h k (by omega))

theorem serverAfter_of_not_rotatable (h : ¬ t.Rotatable agentId) (k : ℕ) :
    serverAfter P agentId newPublicKey attempts t k = t := by
  induction k with
  | zero => rfl
  | succ k ih =>
    rw [serverAfter, ih]
    exact serve_of_not_rotatable h

/-- The agent's active certificate is one that was not there, on the key that was sent. -/
def Renewed (t : AgentTables) (agentId : Uuid) (newPublicKey : String) (t' : AgentTables) : Prop :=
  ∃ new, new ∉ t.ids ∧ t'.activeCertificate agentId = some ⟨new, agentId, .active⟩ ∧
    t'.publicKey new = newPublicKey

/-- What so many attempts leave of an agent that can be rotated. -/
structure Rotating (P : Platform) (agentId : Uuid) (newPublicKey : String)
    (attempts : ℕ → RotationAttempt) (t : AgentTables) (k : ℕ) : Prop where
  rotatable : (serverAfter P agentId newPublicKey attempts t k).Rotatable agentId
  ids : t.ids ⊆ (serverAfter P agentId newPublicKey attempts t k).ids
  renewed : (∃ j < k, (attempts j).commits = true) →
    Renewed t agentId newPublicKey (serverAfter P agentId newPublicKey attempts t k)

theorem rotating (h : t.Rotatable agentId) (k : ℕ) :
    Rotating P agentId newPublicKey attempts t k := by
  induction k with
  | zero => exact ⟨h, fun _ => id, by rintro ⟨j, hj, -⟩; omega⟩
  | succ k ih =>
    cases hk : (attempts k).commits with
    | false =>
      have hsame : serverAfter P agentId newPublicKey attempts t (k + 1) =
        serverAfter P agentId newPublicKey attempts t k := serve_of_not_commits hk
      refine ⟨hsame ▸ ih.rotatable, hsame ▸ ih.ids, ?_⟩
      rintro ⟨j, hj, hcommits⟩
      have hne : j ≠ k := by
        rintro rfl
        simp [hk] at hcommits
      exact hsame ▸ ih.renewed ⟨j, by omega, hcommits⟩
    | true =>
      obtain ⟨new, hrenews⟩ := serve_of_commits P newPublicKey ih.rotatable hk
      refine ⟨hrenews.rotatable, fun id hid => ?_, fun _ => ⟨new, fun hnew => ?_, hrenews.active,
        hrenews.publicKey⟩⟩
      · show id ∈ (serve P agentId newPublicKey _ (attempts k)).1.ids
        rw [hrenews.ids]
        exact List.mem_append_left _ (ih.ids hid)
      · exact hrenews.fresh (ih.ids hnew)

theorem retryable_exchangeAt (k : ℕ) :
    (exchangeAt P agentId newPublicKey attempts t k).retryable = (attempts k).retried := by
  unfold exchangeAt
  cases attempts k with
  | lost seen => rfl
  | unanswered source seen => rfl
  | answered source =>
    by_cases h : (serverAfter P agentId newPublicKey attempts t k).Rotatable agentId
    · obtain ⟨new, t', hok, -⟩ := AgentTables.rotateCertificate_of_rotatable h source newPublicKey
      simp only [serve, hok]
      rfl
    · obtain ⟨e, he, hrefusal⟩ :=
        AgentTables.rotateCertificate_of_not_rotatable h source newPublicKey
      simp only [serve, he]
      exact (refusal_response P agentId hrefusal).1

variable (P agentId newPublicKey t) in
theorem settle_of_not_answered {k : ℕ} (h : (attempts k).isAnswered = false) :
    ∃ e, HttpClient.settle P (exchangeAt P agentId newPublicKey attempts t k) = .error e := by
  unfold exchangeAt
  cases hk : attempts k with
  | lost seen => exact settle_failure P seen
  | unanswered source seen => exact settle_failure P seen
  | answered source => simp [hk, RotationAttempt.isAnswered] at h

variable (P newPublicKey attempts) in
theorem settle_of_not_rotatable (h : ¬ t.Rotatable agentId) (k : ℕ) :
    ∃ e, HttpClient.settle P (exchangeAt P agentId newPublicKey attempts t k) = .error e := by
  cases hk : attempts k with
  | answered source =>
    obtain ⟨e, he, hrefusal⟩ := AgentTables.rotateCertificate_of_not_rotatable h source newPublicKey
    simp only [exchangeAt, serverAfter_of_not_rotatable h, hk, serve, he]
    exact (refusal_response P agentId hrefusal).2
  | _ => exact settle_of_not_answered _ _ _ _ (by rw [hk]; rfl)

variable (P newPublicKey) in
/-- A rotation that is answered. -/
theorem settle_of_answered {k : ℕ} (h : (attempts k).isAnswered = true)
    (hrotatable : (serverAfter P agentId newPublicKey attempts t k).Rotatable agentId) :
    ∃ new, HttpClient.settle P (exchangeAt P agentId newPublicKey attempts t k) =
        .ok (certificateBody P agentId new (serverAfter P agentId newPublicKey attempts t (k + 1))) ∧
      (serverAfter P agentId newPublicKey attempts t k).Renews agentId newPublicKey new
        (serverAfter P agentId newPublicKey attempts t (k + 1)) := by
  rw [serverAfter]
  unfold exchangeAt
  cases hk : attempts k with
  | lost seen => simp [hk, RotationAttempt.isAnswered] at h
  | unanswered source seen => simp [hk, RotationAttempt.isAnswered] at h
  | answered source =>
    obtain ⟨new, t', hok, hrenews⟩ :=
      AgentTables.rotateCertificate_of_rotatable hrotatable source newPublicKey
    refine ⟨new, ?_⟩
    simp only [serve, hok, committed]
    exact ⟨rfl, hrenews⟩

end

/-! ## The key and the certificate -/

/-- The attempt that ends a call. -/
def lastOf (maxRetries : ℕ) (attempts : ℕ → RotationAttempt) : ℕ :=
  lastAttempt (fun k => (attempts k).retried) maxRetries 0

section

variable (P : Platform) (K : SigningKeys) (t : AgentTables) (A : AgentObject)

/-- The agent holds the id of its active certificate, and the private key to it. -/
def Holds : Prop :=
  ∃ identity certificateId c, A.identity = some identity ∧ identity.certificateId = .str certificateId ∧
    t.activeCertificate identity.agentId = some c ∧ P.uuid certificateId = some c.id ∧
    lastPart (t.publicKey c.id) = (K.publicKeyFromPrivate A.privateKey).toList

/-- The agent has been given the certificate whose id it holds. -/
def Known : Prop :=
  ∃ identity certificateId, A.identity = some identity ∧ identity.certificateId = .str certificateId ∧
    ∃ id ∈ t.ids, P.uuid certificateId = some id

/-- The agent is registered, and the server would rotate its certificate. -/
def CanRotate : Prop := ∃ identity, A.identity = some identity ∧ t.Rotatable identity.agentId

/-- No rotation is committed, or the last attempt is answered. -/
def RotationSafe (maxRetries : ℕ) (attempts : ℕ → RotationAttempt) : Prop :=
  Holds P K t A ∧ (CanRotate t A → ∀ k ≤ lastOf maxRetries attempts, (attempts k).commits = false) ∨
  CanRotate t A ∧ (attempts (lastOf maxRetries attempts)).isAnswered = true

variable {P K t A} {identity : RegisteredAgent} {newKeypair : KeyPair K}

theorem install_error {response : Except SdkError Json} {e : SdkError} (h : response = .error e) :
    (A.install identity newKeypair response).2 = A := by
  rw [h]
  rfl

theorem not_holds_of_renewed {t' : AgentTables} {newPublicKey : String} (h : Known P t A)
    (hidentity : A.identity = some identity)
    (hrenewed : Renewed t identity.agentId newPublicKey t') : ¬ Holds P K t' A := by
  rintro ⟨identity', certificateId', c, hidentity', hcertificate', hactive, hid, -⟩
  obtain ⟨identity'', certificateId, hidentity'', hcertificate, id, hmem, hknown⟩ := h
  obtain rfl : identity' = identity := Option.some.inj (hidentity'.symm.trans hidentity)
  obtain rfl : identity'' = identity' := Option.some.inj (hidentity''.symm.trans hidentity)
  obtain ⟨new, hnew, hactive', -⟩ := hrenewed
  obtain rfl : c = ⟨new, identity''.agentId, .active⟩ := Option.some.inj (hactive.symm.trans hactive')
  obtain rfl : certificateId' = certificateId := Json.str.inj (hcertificate'.symm.trans hcertificate)
  obtain rfl : id = new := Option.some.inj (hknown.symm.trans hid)
  exact hnew hmem

theorem holds_of_renews {t' t'' : AgentTables} {new : Uuid} {wire : String}
    (hwire : wire = encodePublicKeyForWire newKeypair.publicKeyB64)
    (huuid : ∀ id, P.uuid (P.uuidText id) = some id)
    (h : t'.Renews identity.agentId wire new t'') :
    Holds P K t'' (A.install identity newKeypair
      (.ok (certificateBody P identity.agentId new t''))).2 := by
  refine ⟨{ identity with certificateId := .str (P.uuidText new) }, P.uuidText new, _, rfl, rfl,
    h.active, huuid new, ?_⟩
  show lastPart (t''.publicKey new) = (K.publicKeyFromPrivate newKeypair.privateKeyB64).toList
  have hbase64 : ':' ∉ newKeypair.publicKeyB64.toList := newKeypair.derived ▸ K.base64 _
  rw [h.publicKey, hwire, lastPart_wire hbase64, newKeypair.derived]

variable {maxRetries : ℕ} {attempts : ℕ → RotationAttempt}

theorem rotateKeys_eq (hidentity : A.identity = some identity) :
    A.rotateKeys P attempts t maxRetries newKeypair =
      (A.install identity newKeypair (HttpClient.settle P (exchangeAt P identity.agentId
          (encodePublicKeyForWire newKeypair.publicKeyB64) attempts t (lastOf maxRetries attempts))),
        serverAfter P identity.agentId (encodePublicKeyForWire newKeypair.publicKeyB64) attempts t
          (lastOf maxRetries attempts + 1)) := by
  simp only [AgentObject.rotateKeys, hidentity, retryable_exchangeAt, request_eq_settle, lastOf]

/-- A rotation that is answered last is the one that the agent holds. -/
theorem holds_of_answered (hidentity : A.identity = some identity)
    (huuid : ∀ id, P.uuid (P.uuidText id) = some id) (hrotatable : t.Rotatable identity.agentId)
    (hanswered : (attempts (lastOf maxRetries attempts)).isAnswered = true) :
    Holds P K (A.rotateKeys P attempts t maxRetries newKeypair).2
      (A.rotateKeys P attempts t maxRetries newKeypair).1.2 := by
  obtain ⟨new, hsettle, hrenews⟩ := settle_of_answered P
    (encodePublicKeyForWire newKeypair.publicKeyB64) hanswered (rotating hrotatable _).rotatable
  rw [rotateKeys_eq hidentity, hsettle]
  exact holds_of_renews rfl huuid hrenews

/-- A rotation that is committed strands the agent if the last attempt is not answered. -/
theorem not_holds_of_not_answered (h : Known P t A) (hidentity : A.identity = some identity)
    (hrotatable : t.Rotatable identity.agentId)
    (hanswered : (attempts (lastOf maxRetries attempts)).isAnswered = false) {k : ℕ}
    (hk : k ≤ lastOf maxRetries attempts) (hcommits : (attempts k).commits = true) :
    ¬ Holds P K (A.rotateKeys P attempts t maxRetries newKeypair).2
      (A.rotateKeys P attempts t maxRetries newKeypair).1.2 := by
  obtain ⟨e, he⟩ := settle_of_not_answered P identity.agentId
    (encodePublicKeyForWire newKeypair.publicKeyB64) t hanswered
  rw [rotateKeys_eq hidentity, install_error he]
  exact not_holds_of_renewed h hidentity ((rotating hrotatable _).renewed ⟨k, by omega, hcommits⟩)

variable (P newKeypair) in
/-- Where nothing is committed, nothing changes. -/
theorem rotateKeys_unchanged (hidentity : A.identity = some identity)
    (hanswered : t.Rotatable identity.agentId →
      ∀ k ≤ lastOf maxRetries attempts, (attempts k).commits = false) :
    (A.rotateKeys P attempts t maxRetries newKeypair).2 = t ∧
    (A.rotateKeys P attempts t maxRetries newKeypair).1.2 = A := by
  rw [rotateKeys_eq hidentity]
  by_cases hrotatable : t.Rotatable identity.agentId
  · have hnone := hanswered hrotatable
    have hlast : (attempts (lastOf maxRetries attempts)).isAnswered = false := by
      have hcommits := hnone _ (le_refl _)
      cases hattempt : attempts (lastOf maxRetries attempts) with
      | answered source => simp [hattempt, RotationAttempt.commits] at hcommits
      | _ => rfl
    obtain ⟨e, he⟩ := settle_of_not_answered P identity.agentId
      (encodePublicKeyForWire newKeypair.publicKeyB64) t hlast
    exact ⟨serverAfter_of_not_commits fun k hk => hnone k (by omega), install_error he⟩
  · obtain ⟨e, he⟩ := settle_of_not_rotatable P (encodePublicKeyForWire newKeypair.publicKeyB64)
      attempts hrotatable (lastOf maxRetries attempts)
    exact ⟨serverAfter_of_not_rotatable hrotatable _, install_error he⟩

/-- **A rotation leaves the agent with its active certificate exactly when** no attempt commits it, or
the response of the last attempt arrives. -/
theorem rotateKeys_holds_iff (huuid : ∀ id, P.uuid (P.uuidText id) = some id) (h : Known P t A) :
    Holds P K (A.rotateKeys P attempts t maxRetries newKeypair).2
      (A.rotateKeys P attempts t maxRetries newKeypair).1.2 ↔
    RotationSafe P K t A maxRetries attempts := by
  obtain ⟨identity, -, hidentity, -⟩ := id h
  have hcan : CanRotate t A ↔ t.Rotatable identity.agentId :=
    ⟨fun ⟨i, hi, hr⟩ => Option.some.inj (hi.symm.trans hidentity) ▸ hr, fun hr => ⟨_, hidentity, hr⟩⟩
  constructor
  · intro hholds
    by_cases hanswered : t.Rotatable identity.agentId ∧
        (attempts (lastOf maxRetries attempts)).isAnswered = true
    · exact .inr ⟨hcan.2 hanswered.1, hanswered.2⟩
    · have hnone : t.Rotatable identity.agentId →
          ∀ k ≤ lastOf maxRetries attempts, (attempts k).commits = false := by
        intro hrotatable k hk
        rw [Bool.eq_false_iff]
        intro hcommits
        have hlast : (attempts (lastOf maxRetries attempts)).isAnswered = false := by
          simpa [hrotatable] using hanswered
        exact not_holds_of_not_answered h hidentity hrotatable hlast hk hcommits hholds
      obtain ⟨hserver, hagent⟩ := rotateKeys_unchanged P newKeypair hidentity hnone
      rw [hserver, hagent] at hholds
      exact .inl ⟨hholds, fun hrotatable => hnone (hcan.1 hrotatable)⟩
  · rintro (⟨hbefore, hnone⟩ | ⟨hrotatable, hanswered⟩)
    · obtain ⟨hserver, hagent⟩ := rotateKeys_unchanged P newKeypair hidentity fun hrotatable =>
        hnone (hcan.2 hrotatable)
      rwa [hserver, hagent]
    · exact holds_of_answered hidentity huuid (hcan.1 hrotatable) hanswered

end

/-! An agent whose first rotation is not answered, and one that has no answer at all. -/

def rotationPlatform : Platform where
  uuid s := some s.length
  uuidText id := String.ofList (List.replicate id 'x')
  uuidHex id := String.ofList (List.replicate id 'x')
  isoformat _ := ""
  lower s := s
  ilike _ _ := false

def colonless : SigningKeys where
  publicKeyFromPrivate k := String.ofList (k.toList.filter fun c => c ≠ ':')
  base64 k := by simp

def oneAgent : AgentTables where
  table := ⟨[⟨1, 7, .active⟩], [⟨2, 1, .active⟩]⟩
  publicKey _ := encodePublicKeyForWire "old"
  admitted := by decide

def registeredAgent : AgentObject where
  privateKey := "old"
  identity := some ⟨1, .str "xx", "principal", "Finance Manager", "agent", "active"⟩
  store := []

def newKeys : KeyPair colonless := ⟨"new", "new", by decide⟩

def timeout : Failure := ⟨.raised true, nofun⟩

theorem holds_registered : Holds rotationPlatform colonless oneAgent registeredAgent :=
  ⟨_, "xx", ⟨2, 1, .active⟩, rfl, rfl, rfl, rfl, by decide⟩

theorem known_registered : Known rotationPlatform oneAgent registeredAgent :=
  ⟨_, "xx", rfl, rfl, 2, by decide, rfl⟩

theorem rotatable_registered : oneAgent.Rotatable 1 :=
  ⟨⟨⟨1, 7, .active⟩, rfl, .inl rfl⟩, ⟨2, 1, .active⟩, rfl⟩

theorem rotateKeys_holds_retried :
    let attempts := fun k => if k = 0 then RotationAttempt.unanswered .next timeout else .answered .next
    Holds rotationPlatform colonless
      (registeredAgent.rotateKeys rotationPlatform attempts oneAgent 3 newKeys).2
      (registeredAgent.rotateKeys rotationPlatform attempts oneAgent 3 newKeys).1.2 :=
  (rotateKeys_holds_iff (fun id => by simp [rotationPlatform]) known_registered).2
    (.inr ⟨⟨_, rfl, rotatable_registered⟩, rfl⟩)

theorem rotateKeys_strands :
    let attempts := fun _ => RotationAttempt.unanswered .next timeout
    Holds rotationPlatform colonless oneAgent registeredAgent ∧
    ¬ Holds rotationPlatform colonless
      (registeredAgent.rotateKeys rotationPlatform attempts oneAgent 3 newKeys).2
      (registeredAgent.rotateKeys rotationPlatform attempts oneAgent 3 newKeys).1.2 :=
  ⟨holds_registered, not_holds_of_not_answered known_registered rfl rotatable_registered rfl
    (Nat.zero_le _) rfl⟩

end Sdk

end PayReality
