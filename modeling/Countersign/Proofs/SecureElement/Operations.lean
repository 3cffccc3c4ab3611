import Countersign.Proofs.SecureElement.Service

/-!
What each operation of a session yields with an element that follows the protocol. Every operation
renews whatever it relies on but the seed.
-/

namespace Countersign.SecureElement

/-- The seed that the session knows is the one that the element holds. -/
def Synced : Situation :=
  fun derived state => ∀ seed, derived = some seed → state.seed = some seed

/-- The session knows a seed, and the element holds it. -/
def Holding (path : Path) (algorithm : Algorithm) : Situation :=
  fun derived state => derived = some (path, algorithm) ∧ state.seed = some (path, algorithm)

/-- The element has absorbed part of a message, too. -/
def Absorbing (path : Path) (algorithm : Algorithm) (message : Bytes) : Situation :=
  fun derived state => Holding path algorithm derived state ∧ state.message = some message

/-- The element has a signature ready, too. -/
def Signed (path : Path) (algorithm : Algorithm) (signature : Bytes) : Situation :=
  fun derived state => Holding path algorithm derived state ∧ state.signature = signature

/-- The element has been told parts of an operation, too. -/
def Told (path : Path) (algorithm : Algorithm) (domain fields : Bytes) : Situation :=
  fun derived state => Holding path algorithm derived state ∧ state.clearPath = some path ∧
    state.clearDomain = domain ∧ state.clearFields = fields

theorem Holding.synced {path : Path} {algorithm : Algorithm}
    {derived : Option (Path × Algorithm)} {state : State}
    (holding : Holding path algorithm derived state) : Synced derived state := by
  intro seed known
  rw [← known, holding.1]
  exact holding.2

section Operations

variable (keys : Keys) (refusals : Nat → Option Refusal) (path : Path) (algorithm : Algorithm)

theorem serves_readClassicalKey (before : Situation) :
    Serves refusals before (Session.readClassicalKey (transport keys refusals) path)
      (.ok (0x04 :: (keys.coordinates path).bytes)) before := by
  have fits : path.toPayload.length ≤ 255 := (Session.derivation path .mlDsa44).length_le
  have form : Session.checkPoint (0x04 :: (keys.coordinates path).bytes) = .ok () := by
    unfold Session.checkPoint
    rw [if_pos ⟨by rw [List.length_cons, (keys.coordinates path).length_bytes], rfl⟩]
  have asked : Serves refusals before
      (Session.transmit (transport keys refusals) .readClassicalKey 0 0 path.toPayload)
      (.ok (0x04 :: (keys.coordinates path).bytes)) before := by
    apply serves_transmit keys refusals fits
    intro derived state start
    refine ⟨state, ?_, start⟩
    change readClassicalKey keys state path.toPayload = _
    unfold readClassicalKey
    rw [Path.ofPayload_toPayload]
  apply serves_bind asked
  apply serves_bind (serves_ofExcept form)
  exact serves_pure _

theorem serves_readAddress (before : Situation) :
    Serves refusals before (Session.readAddress (transport keys refusals) path)
      (.ok (Address.ofCoordinates (keys.coordinates path).bytes)) before := by
  have whole : Address.ofPublicKey (0x04 :: (keys.coordinates path).bytes) =
      .ok (Address.ofCoordinates (keys.coordinates path).bytes) := by
    unfold Address.ofPublicKey
    dsimp only
    rw [List.length_cons, (keys.coordinates path).length_bytes]
    rfl
  apply serves_bind (serves_readClassicalKey keys refusals path before)
  exact serves_ofExcept whole

theorem serves_signHash (before : Situation) (hash : Hash) :
    Serves refusals before (Session.signHash (transport keys refusals) path hash)
      (.ok (keys.classical path hash).lowered) before := by
  have asked : Serves refusals before
      (Session.transmit (transport keys refusals) .signHash 0 0 (Session.hashPayload path hash))
      (.ok (keys.classical path hash).toBytes) before := by
    apply serves_transmit keys refusals (Session.length_hashPayload_le path hash)
    intro derived state start
    refine ⟨state, ?_, start⟩
    change signHash keys state (Session.hashPayload path hash) = _
    unfold signHash
    rw [readHashPayload?_hashPayload]
  apply serves_bind asked
  exact serves_ofExcept (ClassicalSignature.readClassicalSignature_toBytes _)

theorem serves_deriveSeed (before : Situation) :
    Serves refusals before (Session.deriveSeed (transport keys refusals) path algorithm) (.ok ())
      (Holding path algorithm) := by
  have fits : path.toPayload.length ≤ 255 := (Session.derivation path algorithm).length_le
  have forgotten : Serves refusals before
      (modify fun session => { session with derived := none }) (.ok ()) fun _ _ => True :=
    (serves_know none).weaken (fun _ _ _ => trivial) fun _ _ held => held
  have derived : Serves refusals (fun _ _ => True)
      (Session.transmit (transport keys refusals) .deriveSeed 0 algorithm.deviceCode
        path.toPayload)
      (.ok []) fun _ state => state.seed = some (path, algorithm) := by
    apply serves_transmit keys refusals fits
    intro _ state _
    exact ⟨_, carryOut_derivation keys state path algorithm, rfl⟩
  have learned : Serves refusals (fun _ state => state.seed = some (path, algorithm))
      (modify fun session => { session with derived := some (path, algorithm) }) (.ok ())
      (Holding path algorithm) :=
    (serves_know (some (path, algorithm))).weaken (fun _ _ seed => ⟨rfl, seed⟩)
      fun _ _ held => held
  exact serves_bind forgotten (serves_bind derived learned)

theorem serves_ensureSeed :
    Serves refusals Synced (Session.ensureSeed (transport keys refusals) path algorithm) (.ok ())
      (Holding path algorithm) := by
  intro session isOpen synced
  unfold Session.ensureSeed
  rw [Task.bind_ok (Task.get_apply session)]
  by_cases known : session.derived = some (path, algorithm)
  · rw [if_pos known]
    exact ⟨Nat.le_refl _, .inr ⟨rfl, isOpen, known, synced _ known⟩⟩
  · rw [if_neg known]
    exact serves_deriveSeed keys refusals path algorithm Synced session isOpen synced

theorem serves_requireSeed :
    Serves refusals (Holding path algorithm) (Session.requireSeed algorithm) (.ok ())
      (Holding path algorithm) := by
  intro session isOpen holding
  have known : session.derived.map Prod.snd = some algorithm := by
    rw [holding.1]
    rfl
  rw [Session.requireSeed_of_known algorithm known]
  exact ⟨Nat.le_refl _, .inr ⟨rfl, isOpen, holding⟩⟩

theorem serves_generateKey :
    Serves refusals (Holding path algorithm)
      (Session.generateKey (transport keys refusals) algorithm)
      (.ok (keys.latticeKey path algorithm).bytes) (Holding path algorithm) := by
  have fits : ([] : Bytes).length ≤ 255 := by decide
  have length := (keys.latticeKey path algorithm).length_bytes
  have bounds : 0 < algorithm.publicKeyLength ∧ algorithm.publicKeyLength ≤ 65280 := by
    cases algorithm <;> decide
  have generated : Serves refusals (Holding path algorithm)
      (Session.transmit (transport keys refusals) .generateKey 0 algorithm.deviceCode []) (.ok [])
      fun derived state => Holding path algorithm derived state ∧
        state.publicKey = (keys.latticeKey path algorithm).bytes := by
    apply serves_transmit keys refusals fits
    intro derived state holding
    refine ⟨{ state with publicKey := (keys.latticeKey path algorithm).bytes }, ?_, holding, rfl⟩
    change generateKey keys state = _
    unfold generateKey
    rw [holding.2]
  have offers : Offers keys
      (fun derived state => Holding path algorithm derived state ∧
        state.publicKey = (keys.latticeKey path algorithm).bytes)
      .readPublicKey algorithm (keys.latticeKey path algorithm).bytes := by
    rintro derived state ⟨_, ready⟩ p1 _
    change grant (chunk state.publicKey p1) state = _
    rw [ready]
  have nonempty : (keys.latticeKey path algorithm).bytes ≠ [] :=
    List.ne_nil_of_length_pos (by omega)
  have measured : (Session.AnswerLength.ofPublicKey algorithm).total
      ((keys.latticeKey path algorithm).bytes.take 255) =
        .ok (keys.latticeKey path algorithm).bytes.length := by
    rw [length]
    rfl
  have read : Serves refusals _ _ _ _ := serves_readAnswer offers nonempty measured
  rw [readable, if_pos (by omega)] at read
  apply serves_bind (serves_requireSeed refusals path algorithm)
  apply serves_bind generated
  exact read.weaken (fun _ _ ready => ready) fun _ _ ready => ready.1

theorem serves_readSignature (message : Bytes) :
    Serves refusals (Signed path algorithm (keys.latticeSignature path algorithm message))
      (Session.readAnswer (transport keys refusals) .readSignature algorithm
        (.ofSignature algorithm message.length))
      (readable (keys.latticeSignature path algorithm message)) (Holding path algorithm) := by
  have offers : Offers keys
      (Signed path algorithm (keys.latticeSignature path algorithm message))
      .readSignature algorithm (keys.latticeSignature path algorithm message) := by
    rintro derived state ⟨_, ready⟩ p1 _
    change grant (chunk state.signature p1) state = _
    rw [ready]
  have nonempty : keys.latticeSignature path algorithm message ≠ [] :=
    List.ne_nil_of_length_pos (keys.length_latticeSignature_pos path message algorithm)
  have read : Serves refusals _ _ _ _ := serves_readAnswer offers nonempty
    (keys.total_latticeSignature path message algorithm)
  exact read.weaken (fun _ _ ready => ready) fun _ _ ready => ready.1

theorem serves_absorb : ∀ (pieces : List Bytes) (message : Bytes),
    (∀ piece ∈ pieces, piece.length ≤ 255) →
    Serves refusals (Absorbing path algorithm message)
      (Session.absorb (transport keys refusals) algorithm pieces) (.ok ())
      (Absorbing path algorithm (message ++ pieces.flatten))
  | [], message, _ => by
      rw [List.flatten_nil, List.append_nil]
      exact serves_pure ()
  | piece :: later, message, fit => by
      have absorbed : Serves refusals (Absorbing path algorithm message)
          (Session.transmit (transport keys refusals) .signMessage 1 algorithm.deviceCode piece)
          (.ok []) (Absorbing path algorithm (message ++ piece)) := by
        apply serves_transmit keys refusals (fit piece List.mem_cons_self)
        rintro derived state ⟨holding, started⟩
        exact ⟨_, carryOut_absorb keys _ started, holding, rfl⟩
      have rest := serves_absorb later (message ++ piece) fun other member =>
        fit other (List.mem_cons_of_mem _ member)
      rw [List.flatten_cons, ← List.append_assoc]
      exact serves_bind absorbed rest

/-- What comes of signing a message: there is a longest message, and a signed message may be too
long to be read. -/
def messageResult (message : Bytes) : Except Halt Bytes :=
  if 65535 < message.length then
    .error (.failure (.validation (.messageTooLong message.length)))
  else
    readable (keys.latticeSignature path algorithm message)

theorem serves_signMessage (message : Bytes) :
    Serves refusals (Holding path algorithm)
      (Session.signMessage (transport keys refusals) algorithm message)
      (messageResult keys path algorithm message) (Holding path algorithm) := by
  have nothing : ([] : Bytes).length ≤ 255 := by decide
  have started : Serves refusals (Holding path algorithm)
      (Session.transmit (transport keys refusals) .signMessage 0 algorithm.deviceCode [])
      (.ok []) (Absorbing path algorithm []) := by
    apply serves_transmit keys refusals nothing
    intro derived state holding
    exact ⟨{ state with message := some [] }, rfl, holding, rfl⟩
  have absorbed : Serves refusals (Absorbing path algorithm [])
      (Session.absorb (transport keys refusals) algorithm
        (Bytes.pieces Session.absorbLength message))
      (.ok ()) (Absorbing path algorithm message) := by
    have fit : ∀ piece ∈ Bytes.pieces Session.absorbLength message, piece.length ≤ 255 := by
      intro piece member
      have short : piece.length ≤ 250 := Bytes.length_le_of_mem_pieces (by decide) member
      omega
    have whole := serves_absorb keys refusals path algorithm
      (Bytes.pieces Session.absorbLength message) [] fit
    rwa [Bytes.flatten_pieces (by decide), List.nil_append] at whole
  have finished (short : message.length ≤ 65535) : Serves refusals
      (Absorbing path algorithm message)
      (Session.transmit (transport keys refusals) .signMessage 2 algorithm.deviceCode
        (Bytes.ofNatBE 2 message.length))
      (.ok []) (Signed path algorithm (keys.latticeSignature path algorithm message)) := by
    have fits : (Bytes.ofNatBE 2 message.length).length ≤ 255 := by
      rw [Bytes.length_ofNatBE]
      decide
    apply serves_transmit keys refusals fits
    rintro derived state ⟨holding, complete⟩
    exact ⟨_, carryOut_finish keys _ complete holding.2 short, holding, rfl⟩
  unfold messageResult
  apply serves_bind (serves_requireSeed refusals path algorithm)
  by_cases long : 65535 < message.length
  · rw [if_pos long, if_pos long]
    exact serves_fail _
  · rw [if_neg long, if_neg long]
    apply serves_bind started
    apply serves_bind absorbed
    apply serves_bind (finished (by omega))
    exact serves_readSignature keys refusals path algorithm message

/-- What comes of signing a hash with both keys. -/
def bothResult (hash : Hash) : Except Halt (Signature × Bytes) :=
  (readable (keys.latticeSignature path algorithm hash.bytes)).map
    fun postQuantum => ((keys.classical path hash).lowered, postQuantum)

theorem signBoth_eq {state : State} (held : state.seed = some (path, algorithm)) (hash : Hash) :
    signBoth keys state path hash =
      grant (keys.classical path hash).toBytes
        { state with signature := keys.latticeSignature path algorithm hash.bytes } := by
  unfold signBoth
  rw [held]

theorem serves_readBoth (hash : Hash) :
    Serves refusals (Signed path algorithm (keys.latticeSignature path algorithm hash.bytes))
      (Session.readBoth (transport keys refusals) algorithm (keys.classical path hash).toBytes)
      (bothResult keys path algorithm hash) (Holding path algorithm) := by
  have read := serves_readSignature keys refusals path algorithm hash.bytes
  rw [hash.length_bytes] at read
  apply serves_bind (serves_ofExcept (ClassicalSignature.readClassicalSignature_toBytes _))
  exact serves_map _ read

theorem serves_hybridSign (hash : Hash) :
    Serves refusals Synced
      (Session.hybridSign (transport keys refusals) path algorithm hash)
      (bothResult keys path algorithm hash) (Holding path algorithm) := by
  have signed : Serves refusals (Holding path algorithm)
      (Session.transmit (transport keys refusals) .hybridSign 0 algorithm.deviceCode
        (Session.hashPayload path hash))
      (.ok (keys.classical path hash).toBytes)
      (Signed path algorithm (keys.latticeSignature path algorithm hash.bytes)) := by
    apply serves_transmit keys refusals (Session.length_hashPayload_le path hash)
    intro derived state holding
    refine ⟨{ state with signature := keys.latticeSignature path algorithm hash.bytes }, ?_,
      holding, rfl⟩
    change hybridSign keys state (Session.hashPayload path hash) = _
    unfold hybridSign
    rw [readHashPayload?_hashPayload]
    exact signBoth_eq keys path algorithm holding.2 hash
  apply serves_bind (serves_ensureSeed keys refusals path algorithm)
  apply serves_bind signed
  exact serves_readBoth keys refusals path algorithm hash

theorem serves_clearSign (operation : Operation) (contract : Address) (chainId : UInt64) :
    Serves refusals Synced
      (Session.clearSign (transport keys refusals) path algorithm operation contract chainId)
      (bothResult keys path algorithm (operation.hash contract chainId))
      (Holding path algorithm) := by
  have pathFits : path.toPayload.length ≤ 255 := (Session.derivation path algorithm).length_le
  have domainFits : (Session.domainPayload operation contract chainId).length ≤ 255 := by
    rw [Session.length_domainPayload]
    decide
  have fieldsFit : (Session.fieldsPayload operation).length ≤ 255 := by
    rw [Session.length_fieldsPayload]
    decide
  have callFits : (Session.callPayload operation).length ≤ 255 := by
    unfold Session.callPayload
    split
    · assumption
    · decide
  have named : Serves refusals (Holding path algorithm)
      (Session.transmit (transport keys refusals) .clearSign 0 algorithm.deviceCode
        path.toPayload)
      (.ok []) (Told path algorithm [] []) := by
    apply serves_transmit keys refusals pathFits
    intro derived state holding
    refine ⟨{ state with clearPath := some path, clearDomain := [], clearFields := [] }, ?_,
      holding, rfl, rfl, rfl⟩
    change clearSign keys state 0 path.toPayload = _
    unfold clearSign
    rw [if_pos rfl, Path.ofPayload_toPayload]
  have bound : Serves refusals (Told path algorithm [] [])
      (Session.transmit (transport keys refusals) .clearSign 1 algorithm.deviceCode
        (Session.domainPayload operation contract chainId))
      (.ok []) (Told path algorithm (Session.domainPayload operation contract chainId) []) := by
    apply serves_transmit keys refusals domainFits
    rintro derived state ⟨holding, samePath, _, sameFields⟩
    exact ⟨{ state with clearDomain := Session.domainPayload operation contract chainId }, rfl,
      holding, samePath, rfl, sameFields⟩
  have described : Serves refusals
      (Told path algorithm (Session.domainPayload operation contract chainId) [])
      (Session.transmit (transport keys refusals) .clearSign 2 algorithm.deviceCode
        (Session.fieldsPayload operation))
      (.ok []) (Told path algorithm (Session.domainPayload operation contract chainId)
        (Session.fieldsPayload operation)) := by
    apply serves_transmit keys refusals fieldsFit
    rintro derived state ⟨holding, samePath, sameDomain, _⟩
    exact ⟨{ state with clearFields := Session.fieldsPayload operation }, rfl, holding, samePath,
      sameDomain, rfl⟩
  have signed : Serves refusals
      (Told path algorithm (Session.domainPayload operation contract chainId)
        (Session.fieldsPayload operation))
      (Session.transmit (transport keys refusals) .clearSign 3 algorithm.deviceCode
        (Session.callPayload operation))
      (.ok (keys.classical path (operation.hash contract chainId)).toBytes)
      (Signed path algorithm
        (keys.latticeSignature path algorithm (operation.hash contract chainId).bytes)) := by
    apply serves_transmit keys refusals callFits
    rintro derived state ⟨holding, samePath, sameDomain, sameFields⟩
    refine ⟨{ state with
      signature := keys.latticeSignature path algorithm
        (operation.hash contract chainId).bytes }, ?_, holding, rfl⟩
    have shown : clearSign keys state 3 (Session.callPayload operation) =
        signBoth keys state path (operation.hash contract chainId) := by
      unfold clearSign
      rw [if_neg (by decide), if_neg (by decide), if_neg (by decide), if_pos rfl, samePath,
        sameDomain, sameFields, Session.recomputedHash_eq]
    exact shown.trans (signBoth_eq keys path algorithm holding.2 _)
  apply serves_bind (serves_ensureSeed keys refusals path algorithm)
  apply serves_bind named
  apply serves_bind bound
  apply serves_bind described
  apply serves_bind signed
  exact serves_readBoth keys refusals path algorithm _

end Operations

end Countersign.SecureElement
