import Countersign.Proofs.Hex
import Countersign.Proofs.Signature.Normalization

/-!
One signature in three layouts: `v ‖ r ‖ s` as elements send it, `r ‖ s ‖ v` as the chain wants it,
and the latter in hexadecimal. All three are read as the same signature or refused alike, and what
is written is read back, except that a bare recovery number comes back lifted.
-/

namespace Countersign.Signature

/-- A recovery byte as it comes in, and as the chain wants it. -/
inductive Lifts : UInt8 → UInt8 → Prop
  | bareEven : Lifts 0 27
  | bareOdd : Lifts 1 28
  | even : Lifts 27 27
  | odd : Lifts 28 28

theorem Lifts.chainRecovery {byte lifted : UInt8} (lifts : Lifts byte lifted) :
    chainRecovery byte = .ok lifted := by
  cases lifts <;> rfl

theorem Lifts.mem {byte lifted : UInt8} (lifts : Lifts byte lifted) :
    byte ∈ [0, 1, 27, 28] := by
  cases lifts <;> decide

theorem chainRecovery_of_not_lifts {byte : UInt8} (other : ∀ lifted, ¬ Lifts byte lifted) :
    chainRecovery byte = .error (.signature (.recoveryByte byte)) := by
  have notBare : ¬ (byte = 0 ∨ byte = 1) := by
    rintro (rfl | rfl)
    · exact other 27 .bareEven
    · exact other 28 .bareOdd
  have notLifted : ¬ (byte = 27 ∨ byte = 28) := by
    rintro (rfl | rfl)
    · exact other 27 .even
    · exact other 28 .odd
  rw [Signature.chainRecovery, if_neg notBare, if_neg notLifted]

/-- Laid out in any of the three ways, the parts of a signature are read with the same result. -/
structure ReadAs (r s : Octets 32) (v : UInt8) (result : Except Error Signature) : Prop where
  device : ofDeviceBytes (v :: r.bytes ++ s.bytes) = result
  chain : ofBytes (r.bytes ++ s.bytes ++ [v]) = result
  text : ofHex (Hex.encode (r.bytes ++ s.bytes ++ [v])) = result

/-- Whatever text spells sixty-five bytes, it is read as the bytes are. -/
theorem ofHex_of_spells {bytes : Bytes} {text : String} (spelled : Hex.Spells bytes text) :
    ofHex text =
      if bytes.length = 65 then ofBytes bytes else .error (.length 65 bytes.length) := by
  rw [ofHex, Hex.read, Hex.decode_of_spells spelled]
  by_cases exact : bytes.length = 65
  · simp only [if_pos exact]
    rfl
  · simp only [if_neg exact]
    rfl

theorem ofHex_encode {bytes : Bytes} (exact : bytes.length = 65) :
    ofHex (Hex.encode bytes) = ofBytes bytes := by
  rw [ofHex_of_spells (Hex.spells_encode bytes), if_pos exact]

theorem ofHex_toHex (signature : Signature) : ofHex signature.toHex = ofBytes signature.toBytes :=
  ofHex_encode signature.length_toBytes

theorem readAs_parts (r s : Octets 32) (v : UInt8) :
    ReadAs r s v ((chainRecovery v).map (mk r s)) where
  device := ofDeviceBytes_parts r s v
  chain := ofBytes_parts r s v
  text := by
    have long : (r.bytes ++ s.bytes ++ [v]).length = 65 := length_toBytes ⟨r, s, v⟩
    rw [ofHex_encode long, ofBytes_parts]

theorem readAs_of_lifts {v lifted : UInt8} (lifts : Lifts v lifted) (r s : Octets 32) :
    ReadAs r s v (.ok ⟨r, s, lifted⟩) := by
  have read := readAs_parts r s v
  rwa [lifts.chainRecovery] at read

theorem readAs_of_not_lifts {v : UInt8} (other : ∀ lifted, ¬ Lifts v lifted) (r s : Octets 32) :
    ReadAs r s v (.error (.signature (.recoveryByte v))) := by
  have read := readAs_parts r s v
  rwa [chainRecovery_of_not_lifts other] at read

theorem ofParts_of_length {length : Nat} {r s recovery : Bytes}
    (wrong : ¬ (r.length = 32 ∧ s.length = 32 ∧ recovery.length = 1)) :
    ofParts length r s recovery = .error (.signature (.wrongLength length)) := by
  unfold ofParts
  split
  case h_1 first second byte isFirst isSecond =>
    have firstBytes := Octets.ofBytes?_eq_some isFirst
    have secondBytes := Octets.ofBytes?_eq_some isSecond
    refine absurd ⟨?_, ?_, rfl⟩ wrong
    · rw [← firstBytes, first.length_bytes]
    · rw [← secondBytes, second.length_bytes]
  case h_2 => rfl

/-- Bytes of any other number are no signature in any layout. -/
theorem refused_of_length {bytes : Bytes} (wrong : bytes.length ≠ 65) :
    ofDeviceBytes bytes = .error (.signature (.wrongLength bytes.length)) ∧
      ofBytes bytes = .error (.signature (.wrongLength bytes.length)) ∧
      ofHex (Hex.encode bytes) = .error (.length 65 bytes.length) := by
  refine ⟨ofParts_of_length ?_, ofParts_of_length ?_, ?_⟩
  · simp only [List.length_take, List.length_drop]
    omega
  · simp only [List.length_take, List.length_drop]
    omega
  · rw [ofHex_of_spells (Hex.spells_encode bytes), if_neg wrong]

/-- A signature was read in some layout, or is the low form of another. -/
inductive Obtained (signature : Signature) : Prop
  | ofDeviceBytes {bytes : Bytes} (read : ofDeviceBytes bytes = .ok signature)
  | ofBytes {bytes : Bytes} (read : ofBytes bytes = .ok signature)
  | ofHex {text : String} (read : ofHex text = .ok signature)
  | normalized {other : Signature} (lowered : other.normalize = .ok signature)

theorem ofParts_eq_ok {length : Nat} {r s recovery : Bytes} {signature : Signature}
    (read : ofParts length r s recovery = .ok signature) :
    signature.v = 27 ∨ signature.v = 28 := by
  unfold ofParts at read
  split at read
  · obtain ⟨lifted, accepted, rfl⟩ := Result.map_eq_ok read
    exact chainRecovery_eq_ok accepted
  · cases read

theorem normalize_eq_ok {other signature : Signature}
    (lowered : other.normalize = .ok signature) : signature.v = 27 ∨ signature.v = 28 := by
  by_cases formed : other.WellFormed
  · rw [normalize_eq_lowForm formed] at lowered
    cases lowered
    exact formed.lowForm.recovery
  · obtain ⟨fault, refused⟩ := normalize_of_not_wellFormed formed
    rw [refused] at lowered
    cases lowered

theorem Obtained.recovery {signature : Signature} (obtained : signature.Obtained) :
    signature.v = 27 ∨ signature.v = 28 := by
  cases obtained with
  | ofDeviceBytes read => exact ofParts_eq_ok read
  | ofBytes read => exact ofParts_eq_ok read
  | ofHex read =>
      obtain ⟨bytes, _, readBytes⟩ := Result.bind_eq_ok read
      exact ofParts_eq_ok readBytes
  | normalized lowered => exact normalize_eq_ok lowered

theorem lifts_of_recoveryNumber? {signature : Signature} {number : UInt8}
    (numbered : signature.recoveryNumber? = some number) :
    signature.v = 27 ∨ signature.v = 28 := by
  by_contra other
  rw [recoveryNumber?, if_neg other] at numbered
  cases numbered

/-- The layouts are read alike, and only for a recovery byte that is a number or lifted already;
other numbers of bytes are refused in each. What is written is read back with the recovery byte
lifted, so that a signature which was obtained from outside is read back as it is, also where it
stands beside a lattice signature. -/
theorem layouts_read_alike (r s : Octets 32) (v : UInt8) (bytes : Bytes) (signature : Signature) :
    ((∀ lifted, Lifts v lifted → ReadAs r s v (.ok ⟨r, s, lifted⟩)) ∧
      ((∀ lifted, ¬ Lifts v lifted) → ReadAs r s v (.error (.signature (.recoveryByte v))))) ∧
    (bytes.length ≠ 65 →
      ofDeviceBytes bytes = .error (.signature (.wrongLength bytes.length)) ∧
        ofBytes bytes = .error (.signature (.wrongLength bytes.length)) ∧
        ofHex (Hex.encode bytes) = .error (.length 65 bytes.length)) ∧
    ((∀ number, signature.recoveryNumber? = some number →
        ofBytes signature.toBytes = .ok signature ∧ ofHex signature.toHex = .ok signature) ∧
      (signature.v = 0 ∨ signature.v = 1 →
        ofBytes signature.toBytes = .ok { signature with v := signature.v + 27 } ∧
          ofHex signature.toHex = .ok { signature with v := signature.v + 27 }) ∧
      (signature.v ∉ [0, 1, 27, 28] →
        ofBytes signature.toBytes = .error (.signature (.recoveryByte signature.v)) ∧
          ofHex signature.toHex = .error (.signature (.recoveryByte signature.v)))) ∧
    ∀ postQuantum, signature.Obtained →
      ofBytes (HybridSignature.make signature postQuantum).classical = .ok signature := by
  refine ⟨⟨?lifted, ?unlifted⟩, refused_of_length, ⟨?numbered, ?bare, ?neither⟩, ?obtained⟩
  case lifted =>
    intro lifted lifts
    exact readAs_of_lifts lifts r s
  case unlifted =>
    intro other
    exact readAs_of_not_lifts other r s
  case numbered =>
    intro number numbered
    rw [ofHex_toHex, ofBytes_toBytes (lifts_of_recoveryNumber? numbered)]
    exact ⟨rfl, rfl⟩
  case bare =>
    intro bare
    have lifts : Lifts signature.v (signature.v + 27) := by
      rcases bare with even | odd
      · rw [even]
        exact .bareEven
      · rw [odd]
        exact .bareOdd
    have read := (readAs_of_lifts lifts signature.r signature.s).chain
    rw [ofHex_toHex]
    exact ⟨read, read⟩
  case neither =>
    intro neither
    have other : ∀ lifted, ¬ Lifts signature.v lifted := fun _ lifts => neither lifts.mem
    have read := (readAs_of_not_lifts other signature.r signature.s).chain
    rw [ofHex_toHex]
    exact ⟨read, read⟩
  case obtained =>
    intro postQuantum obtained
    exact ofBytes_toBytes obtained.recovery

theorem layouts_read_alike_bare :
    let signature : Signature := ⟨.ofNat 32 5, .ofNat 32 6, 28⟩
    ReadAs signature.r signature.s 1 (.ok signature) ∧
      ofDeviceBytes (List.replicate 64 27) = .error (.signature (.wrongLength 64)) ∧
      ofBytes (HybridSignature.make signature []).classical = .ok signature := by
  intro signature
  obtain ⟨⟨lifted, _⟩, refused, _, readBack⟩ :=
    layouts_read_alike signature.r signature.s 1 (List.replicate 64 27) signature
  have read := lifted 28 .bareOdd
  have wrong : (List.replicate 64 (27 : UInt8)).length ≠ 65 := by decide
  exact ⟨read, (refused wrong).1, readBack [] (.ofBytes read.chain)⟩

end Countersign.Signature
