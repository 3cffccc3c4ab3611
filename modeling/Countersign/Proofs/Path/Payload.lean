import Countersign.Proofs.SecureElement.Machine

/-!
The wire form of a path in both directions. A path tells where it ends, so that what stands behind
it stays apart from it; and of arbitrary bytes just those are read that begin with the wire form of
a path. A hash that is sent behind a path is therefore read as it was sent.
-/

namespace Countersign

namespace Path

variable {bytes tail : Bytes} {path : Path}

theorem componentBytes_readComponent {piece : Bytes} (whole : piece.length = 4) :
    componentBytes (readComponent piece) = piece := by
  have below := Bytes.toNatBE_lt piece
  have written := Bytes.ofNatBE_toNatBE piece
  rw [whole] at below written
  rw [componentBytes, readComponent, UInt32.toNat_ofNat_of_lt' below, written]

/-- Components that were read from whole pieces are written as these pieces. -/
theorem flatMap_readComponents {count : Nat} {body : Bytes} (whole : body.length = count * 4) :
    ((Bytes.pieces 4 body).map readComponent).flatMap componentBytes = body := by
  have full := Bytes.length_of_mem_pieces (by decide : 0 < 4) count whole
  have same : (Bytes.pieces 4 body).map (componentBytes ∘ readComponent) =
      (Bytes.pieces 4 body).map id :=
    List.map_congr_left fun piece member => componentBytes_readComponent (full piece member)
  rw [List.flatMap_def, List.map_map, same, List.map_id, Bytes.flatten_pieces (by decide)]

/-- Where there are enough bytes, as many components are read as were announced. -/
theorem length_components {count : Nat} {rest : Bytes} (enough : ¬ rest.length < count * 4) :
    (rest.take (count * 4)).length = count * 4 ∧
      ((Bytes.pieces 4 (rest.take (count * 4))).map readComponent).length = count := by
  have whole : (rest.take (count * 4)).length = count * 4 := by
    rw [List.length_take]
    omega
  refine ⟨whole, ?_⟩
  rw [List.length_map, Bytes.length_pieces (by decide) count whole]

/-- The first byte announces ten components at most, and the bytes of so many follow it. -/
def Announced (bytes : Bytes) : Prop :=
  ∃ count, bytes.head? = some count ∧ count.toNat ≤ 10 ∧ 1 + 4 * count.toNat ≤ bytes.length

theorem ofPayload_of_announced (announced : Announced bytes) :
    ∃ path tail, ofPayload bytes = .ok (path, tail) ∧ path.toPayload ++ tail = bytes := by
  obtain ⟨count, first, few, long⟩ := announced
  obtain ⟨rest, rfl⟩ := List.head?_eq_some_iff.mp first
  rw [List.length_cons] at long
  have enough : ¬ rest.length < count.toNat * 4 := by omega
  obtain ⟨whole, counted⟩ := length_components enough
  have shallow := few
  rw [← counted] at shallow
  refine ⟨⟨_, shallow⟩, rest.drop (count.toNat * 4), ?_, ?_⟩
  · simp only [ofPayload, if_neg enough, ofComponents, dif_pos shallow]
    rfl
  · rw [toPayload, counted, UInt8.ofNat_toNat, flatMap_readComponents whole, List.cons_append,
      List.take_append_drop]

theorem ofPayload_of_not_announced (unannounced : ¬ Announced bytes) :
    ∃ fault, ofPayload bytes = .error (.path fault) := by
  rcases bytes with _ | ⟨count, rest⟩
  · exact ⟨_, rfl⟩
  by_cases short : rest.length < count.toNat * 4
  · exact ⟨_, by rw [ofPayload, if_pos short]⟩
  · have deep : ¬ ((Bytes.pieces 4 (rest.take (count.toNat * 4))).map readComponent).length ≤
        10 := by
      rw [(length_components short).2]
      intro few
      exact unannounced ⟨count, rfl, few, by rw [List.length_cons]; omega⟩
    exact ⟨_, by rw [ofPayload, if_neg short, ofComponents, dif_neg deep]; rfl⟩

/-- What is read are the path and the rest that were joined, and nothing else. -/
theorem ofPayload_eq_ok_iff :
    ofPayload bytes = .ok (path, tail) ↔ path.toPayload ++ tail = bytes := by
  constructor
  · intro read
    by_cases announced : Announced bytes
    · obtain ⟨_, _, found, joined⟩ := ofPayload_of_announced announced
      rw [found] at read
      cases read
      exact joined
    · obtain ⟨fault, refused⟩ := ofPayload_of_not_announced announced
      rw [refused] at read
      cases read
  · rintro rfl
    exact ofPayload_toPayload_append path tail

end Path

namespace Session

variable {σ : Type} (transport : Transport σ) (path : Path) (hash : Hash)

theorem follows_signHash :
    Follows .signHash [(0, hashPayload path hash)] (signHash transport.recorded path hash) := by
  apply follows_bind_last (follows_transmit transport .signHash 0 0 _)
  intro response
  exact follows_ofExcept _

theorem follows_hybridSign (algorithm : Algorithm) :
    Follows .hybridSign [(0, hashPayload path hash)]
      (hybridSign transport.recorded path algorithm hash) := by
  apply follows_bind_quiet (follows_ensureSeed transport path algorithm (by decide))
  intro _
  apply follows_bind_last (follows_transmit transport .hybridSign 0 _ _)
  intro response
  exact follows_readBoth transport algorithm (by decide) response

end Session

/-- A path is read back from its wire form whatever follows it, and bytes are read just as the path
and the rest that they are joined of: those bytes are read whose first byte announces ten components
at most and is followed by them, and all others are refused. So the path and the hash that a session
sends to have the hash signed, by one key or by both, are the ones that the element reads. -/
theorem Path.payload_tells_its_end :
    (∀ (path : Path) (rest : Bytes), ofPayload (path.toPayload ++ rest) = .ok (path, rest)) ∧
      (∀ (bytes : Bytes) (path : Path) (tail : Bytes),
        ofPayload bytes = .ok (path, tail) ↔ path.toPayload ++ tail = bytes) ∧
      (∀ bytes : Bytes, (∃ path tail, ofPayload bytes = .ok (path, tail)) ↔
        ∃ count, bytes.head? = some count ∧ count.toNat ≤ 10 ∧
          1 + 4 * count.toNat ≤ bytes.length) ∧
      (∀ bytes : Bytes, (¬ ∃ path tail, ofPayload bytes = .ok (path, tail)) →
        ∃ fault, ofPayload bytes = .error (.path fault)) ∧
      (∀ (path : Path) (hash : Hash),
        SecureElement.readHashPayload? (Session.hashPayload path hash) = some (path, hash)) ∧
      ∀ {σ : Type} (transport : Transport σ) (path : Path) (algorithm : Algorithm) (hash : Hash),
        Session.Follows .signHash [(0, Session.hashPayload path hash)]
            (Session.signHash transport.recorded path hash) ∧
          Session.Follows .hybridSign [(0, Session.hashPayload path hash)]
            (Session.hybridSign transport.recorded path algorithm hash) := by
  refine ⟨ofPayload_toPayload_append, fun _ _ _ => ofPayload_eq_ok_iff, ?_, ?_,
    SecureElement.readHashPayload?_hashPayload, ?_⟩
  · intro bytes
    constructor
    · rintro ⟨path, tail, read⟩
      by_contra unannounced
      obtain ⟨fault, refused⟩ := ofPayload_of_not_announced unannounced
      rw [refused] at read
      cases read
    · intro announced
      obtain ⟨path, tail, read, _⟩ := ofPayload_of_announced announced
      exact ⟨path, tail, read⟩
  · intro bytes unread
    apply ofPayload_of_not_announced
    intro announced
    obtain ⟨path, tail, read, _⟩ := ofPayload_of_announced announced
    exact unread ⟨path, tail, read⟩
  · intro σ transport path algorithm hash
    exact ⟨Session.follows_signHash transport path hash,
      Session.follows_hybridSign transport path hash algorithm⟩

end Countersign
