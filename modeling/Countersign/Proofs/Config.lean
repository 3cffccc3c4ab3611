import Countersign.Config
import Countersign.Proofs.Json.Straying

/-!
Loading a configuration: what the document gives is put over the standard configuration, and the
result is checked. How the document is written does not matter, but no part may be given twice.
-/

namespace Countersign

open Json

/-- A plain number stands for a number. -/
def Json.StandsForNumber (number : UInt64) (value : Value) : Prop :=
  value = .natural number.toNat

theorem uint64?_of_standsFor (number : UInt64) (value : Value)
    (stands : StandsForNumber number value) : uint64? value = some number := by
  rw [show value = .natural number.toNat from stands]
  exact uint64?_natural number

/-- A text of digits or an array of octets stands for a byte string. -/
def Json.StandsForOctets {n : Nat} (octets : Octets n) (value : Value) : Prop :=
  Holds octets.bytes value

theorem octets?_of_standsFor {n : Nat} (octets : Octets n) (value : Value)
    (stands : StandsForOctets octets value) : octets? n value = some octets :=
  octets?_of_holds stands

/-- What is given of a gas policy. -/
structure GasPolicy.Given where
  mlDsa44Floor : Option UInt64
  falcon512Floor : Option UInt64
  multiplierPercent : Option UInt64
  preVerificationFloor : Option UInt64
  defaultCall : Option UInt64

namespace GasPolicy.Given

/-- The rest is as in the standard policy. -/
def completed (given : Given) : GasPolicy where
  mlDsa44Floor := given.mlDsa44Floor.getD standard.mlDsa44Floor
  falcon512Floor := given.falcon512Floor.getD standard.falcon512Floor
  multiplierPercent := given.multiplierPercent.getD standard.multiplierPercent
  preVerificationFloor := given.preVerificationFloor.getD standard.preVerificationFloor
  defaultCall := given.defaultCall.getD standard.defaultCall

/-- An object gives just these parts of a policy. It may have other fields. -/
inductive StandsFor (given : Given) : Value → Prop
  | object {fields : List (String × Value)}
      (mlDsa44Floor : Gives StandsForNumber fields "mlDsa44VerificationGasFloor"
        given.mlDsa44Floor)
      (falcon512Floor : Gives StandsForNumber fields "falcon512VerificationGasFloor"
        given.falcon512Floor)
      (multiplierPercent : Gives StandsForNumber fields "preVerificationGasMultiplierPercent"
        given.multiplierPercent)
      (preVerificationFloor : Gives StandsForNumber fields "preVerificationGasFloor"
        given.preVerificationFloor)
      (defaultCall : Gives StandsForNumber fields "defaultCallGasLimit" given.defaultCall) :
      StandsFor given (.object (named fields))

theorem ofValue?_of_standsFor (given : Given) (value : Value) (stands : given.StandsFor value) :
    GasPolicy.ofValue? value = some given.completed := by
  cases stands with
  | @object fields mlDsa44Floor falcon512Floor multiplierPercent preVerificationFloor defaultCall =>
      have single : ∀ name ∈ keys, (fieldsOf name fields).length ≤ 1 := by
        simp [keys, mlDsa44Floor.single, falcon512Floor.single, multiplierPercent.single,
          preVerificationFloor.single, defaultCall.single]
      have read := uint64?_of_standsFor
      rw [GasPolicy.ofValue?, fields?_named single]
      simp [keys, mlDsa44Floor.optional read, falcon512Floor.optional read,
        multiplierPercent.optional read, preVerificationFloor.optional read,
        defaultCall.optional read, completed]

end GasPolicy.Given

/-- What is given of the fees. -/
structure FeeDefaults.Given where
  maximum : Option UInt64
  priority : Option UInt64

namespace FeeDefaults.Given

/-- The rest is as in the standard fees. -/
def completed (given : Given) : FeeDefaults where
  maximum := given.maximum.getD standard.maximum
  priority := given.priority.getD standard.priority

/-- An object gives just these fees. It may have other fields. -/
inductive StandsFor (given : Given) : Value → Prop
  | object {fields : List (String × Value)}
      (maximum : Gives StandsForNumber fields "maxFeePerGas" given.maximum)
      (priority : Gives StandsForNumber fields "maxPriorityFeePerGas" given.priority) :
      StandsFor given (.object (named fields))

theorem ofValue?_of_standsFor (given : Given) (value : Value) (stands : given.StandsFor value) :
    FeeDefaults.ofValue? value = some given.completed := by
  cases stands with
  | @object fields maximum priority =>
      have single : ∀ name ∈ keys, (fieldsOf name fields).length ≤ 1 := by
        simp [keys, maximum.single, priority.single]
      have read := uint64?_of_standsFor
      rw [FeeDefaults.ofValue?, fields?_named single]
      simp [keys, maximum.optional read, priority.optional read, completed]

end FeeDefaults.Given

/-- What is given of the waiting times. -/
structure Poll.Given where
  interval : Option UInt64
  timeout : Option UInt64

namespace Poll.Given

/-- The rest is as in the standard times. -/
def completed (given : Given) : Poll where
  interval := given.interval.getD standard.interval
  timeout := given.timeout.getD standard.timeout

/-- An object gives just these times. It may have other fields. -/
inductive StandsFor (given : Given) : Value → Prop
  | object {fields : List (String × Value)}
      (interval : Gives StandsForNumber fields "intervalMs" given.interval)
      (timeout : Gives StandsForNumber fields "timeoutMs" given.timeout) :
      StandsFor given (.object (named fields))

theorem ofValue?_of_standsFor (given : Given) (value : Value) (stands : given.StandsFor value) :
    Poll.ofValue? value = some given.completed := by
  cases stands with
  | @object fields interval timeout =>
      have single : ∀ name ∈ keys, (fieldsOf name fields).length ≤ 1 := by
        simp [keys, interval.single, timeout.single]
      have read := uint64?_of_standsFor
      rw [Poll.ofValue?, fields?_named single]
      simp [keys, interval.optional read, timeout.optional read, completed]

end Poll.Given

namespace Config

/-- Of the parts of a configuration, only the entry point is wanted in a form. -/
theorem field_of_ne {name : String} (other : name ≠ "entryPoint") :
    (Form.record Config.fields).field (some name) = .any := by
  simp only [Form.field, Config.fields, List.lookup_cons, List.lookup_nil,
    beq_eq_false_iff_ne.2 other]
  repeat' split
  all_goals rfl

/-- What is given of a configuration: any part of it, and of each section any part. -/
structure Given where
  entryPoint : Option Address
  chainId : Option UInt64
  gas : Option GasPolicy.Given
  fees : Option FeeDefaults.Given
  poll : Option Poll.Given

namespace Given

/-- The rest is as in the standard configuration. -/
def completed (given : Given) : Config where
  entryPoint := given.entryPoint.getD standard.entryPoint
  chainId := given.chainId.getD standard.chainId
  gas := (given.gas.map GasPolicy.Given.completed).getD standard.gas
  fees := (given.fees.map FeeDefaults.Given.completed).getD standard.fees
  poll := (given.poll.map Poll.Given.completed).getD standard.poll

/-- An object gives just these parts of a configuration. It may have other fields. -/
inductive StandsFor (given : Given) : Value → Prop
  | object {fields : List (String × Value)}
      (entryPoint : Gives StandsForOctets fields "entryPoint" given.entryPoint)
      (chainId : Gives StandsForNumber fields "chainId" given.chainId)
      (gas : Gives GasPolicy.Given.StandsFor fields "gas" given.gas)
      (fees : Gives FeeDefaults.Given.StandsFor fields "fees" given.fees)
      (poll : Gives Poll.Given.StandsFor fields "poll" given.poll) :
      StandsFor given (.object (named fields))

/-- A document gives these parts of a configuration, written in any way. -/
def WrittenIn (given : Given) (document : String) : Prop :=
  ∃ value, given.StandsFor value ∧ Writes value document

theorem ofValue?_of_standsFor (given : Given) (value : Value) (stands : given.StandsFor value) :
    Config.ofValue? value = some given.completed := by
  cases stands with
  | @object fields entryPoint chainId gas fees poll =>
      have single : ∀ name ∈ Config.fields.map Prod.fst, (fieldsOf name fields).length ≤ 1 := by
        simp [Config.fields, entryPoint.single, chainId.single, gas.single, fees.single,
          poll.single]
      rw [Config.ofValue?, fields?_named single]
      simp [Config.fields, entryPoint.optional octets?_of_standsFor,
        chainId.optional uint64?_of_standsFor,
        gas.optional_map GasPolicy.Given.ofValue?_of_standsFor,
        fees.optional_map FeeDefaults.Given.ofValue?_of_standsFor,
        poll.optional_map Poll.Given.ofValue?_of_standsFor, completed]

theorem suits_of_standsFor {given : Given} {value : Value} (stands : given.StandsFor value) :
    Suits (.record Config.fields) value := by
  cases stands with
  | @object fields entryPoint =>
      refine .object fun field among => ?_
      obtain ⟨⟨name, value⟩, inside, rfl⟩ := List.mem_map.mp among
      by_cases isEntryPoint : name = "entryPoint"
      · subst isEntryPoint
        obtain ⟨point, holds⟩ := entryPoint.exists_part inside
        exact suits_of_holds holds
      · rw [field_of_ne isEntryPoint]
        exact .any

/-- A document is read as what it gives, completed. -/
theorem ofJson_of_writtenIn {given : Given} {document : String}
    (written : given.WrittenIn document) :
    ofJson document = .ok given.completed := by
  obtain ⟨value, stands, spelled⟩ := written
  have read := given.ofValue?_of_standsFor value stands
  simp [ofJson, readDocument, parse?_of_writes spelled (suits_of_standsFor stands), decode, read]

end Given

/-- The outcome of checking a configuration: the configuration if it passes four checks, and
otherwise the refusal that belongs to the first that it does not pass. -/
structure Checked (config : Config) (result : Except Error Config) : Prop where
  accepted : result = .ok config ↔
    config.chainId ≠ 0 ∧ 100 ≤ config.gas.multiplierPercent ∧
      config.fees.priority ≤ config.fees.maximum ∧ config.poll.interval ≠ 0
  withoutChain : config.chainId = 0 → result = .error (.validation .zeroChainId)
  belowHundred : config.chainId ≠ 0 → ¬ 100 ≤ config.gas.multiplierPercent →
    result = .error (.validation .multiplierBelowHundred)
  aboveMaximum : config.chainId ≠ 0 → 100 ≤ config.gas.multiplierPercent →
    ¬ config.fees.priority ≤ config.fees.maximum →
    result = .error (.validation .priorityFeeAboveMaximum)
  withoutInterval : config.chainId ≠ 0 → 100 ≤ config.gas.multiplierPercent →
    config.fees.priority ≤ config.fees.maximum → config.poll.interval = 0 →
    result = .error (.validation .zeroPollInterval)

theorem checked_validate (config : Config) :
    Checked config (config.validate.map fun _ => config) := by
  have below : config.gas.multiplierPercent < 100 ↔ ¬ 100 ≤ config.gas.multiplierPercent :=
    UInt64.not_le.symm
  have above : config.fees.maximum < config.fees.priority ↔
      ¬ config.fees.priority ≤ config.fees.maximum := UInt64.not_le.symm
  rw [validate]
  simp only [below, above]
  by_cases chain : config.chainId = 0
  · constructor <;> simp [chain, Except.map]
  by_cases enough : 100 ≤ config.gas.multiplierPercent
  · by_cases ordered : config.fees.priority ≤ config.fees.maximum
    · by_cases still : config.poll.interval = 0 <;>
        constructor <;> simp [chain, enough, ordered, still, Except.map]
    · constructor <;> simp [chain, enough, ordered, Except.map]
  · constructor <;> simp [chain, enough, Except.map]

theorem load_of_ofJson {document : String} {config : Config} (read : ofJson document = .ok config) :
    load document = config.validate.map fun _ => config := by
  rw [load, read]
  cases validated : config.validate <;>
    simp [validated, Except.map, bind, Except.bind, pure, Except.pure]

/-- The sections of a configuration and what is known in them. -/
def sections : List (String × List String) :=
  [("gas", GasPolicy.keys), ("fees", FeeDefaults.keys), ("poll", Poll.keys)]

/-- A known part stands twice in an object, or twice in one of its sections. -/
inductive Doubled (fields : List (Option String × Value)) : Prop
  | outside {name : String} : name ∈ Config.fields.map Prod.fst → Twice name fields → Doubled fields
  | inside {key name : String} {names : List String} {inner : List (Option String × Value)} :
      (key, names) ∈ sections → (some key, .object inner) ∈ fields → name ∈ names →
      Twice name inner → Doubled fields

theorem ofValue?_of_doubled {fields : List (Option String × Value)} (doubled : Doubled fields) :
    ofValue? (.object fields) = none := by
  cases doubled with
  | outside known twice => rw [ofValue?, fields?_of_twice known twice]
  | @inside key name names inner isSection among known twice =>
      have refused := fields?_of_twice known twice
      cases found : fields? (Config.fields.map Prod.fst) (.object fields) with
      | none => rw [ofValue?, found]
      | some values =>
          obtain ⟨_, same⟩ := Option.ite_none_right_eq_some.mp found
          have looked : key ∈ Config.fields.map Prod.fst →
              lookup? key fields = some (.object inner) :=
            fun isKey => lookup?_of_mem found isKey among
          rw [ofValue?, found, ← Option.some.inj same]
          simp only [sections, List.mem_cons, Prod.mk.injEq, List.not_mem_nil, or_false]
            at isSection
          rcases isSection with ⟨rfl, rfl⟩ | ⟨rfl, rfl⟩ | ⟨rfl, rfl⟩
          · have none : GasPolicy.ofValue? (.object inner) = none := by
              rw [GasPolicy.ofValue?, refused]
            simp [Config.fields, looked (by decide), none]
          · have none : FeeDefaults.ofValue? (.object inner) = none := by
              rw [FeeDefaults.ofValue?, refused]
            simp [Config.fields, looked (by decide), none]
          · have none : Poll.ofValue? (.object inner) = none := by
              rw [Poll.ofValue?, refused]
            simp [Config.fields, looked (by decide), none]

theorem wantsOctets_fields : WantsOctets (.record Config.fields) "entryPoint" where
  wanted := ⟨20, rfl⟩
  others := fun key other => by
    cases key with
    | none => rfl
    | some name => exact field_of_ne fun same => other (congrArg some same)

theorem Doubled.of_same {fields others : List (Option String × Value)}
    (same : SameButAt "entryPoint" fields others) (doubled : Doubled fields) : Doubled others := by
  cases doubled with
  | outside known twice => exact .outside known (twice_of_same_keys same.keys twice)
  | @inside key name names inner isSection among known twice =>
      have other : key ≠ "entryPoint" := by
        rintro rfl
        simp [sections] at isSection
      have kept := same.values _ among fun isPoint => other (Option.some.inj isPoint)
      exact .inside isSection kept known twice

theorem load_of_doubled {fields : List (Option String × Value)} {document : String}
    (doubled : Doubled fields) (written : Writes (.object fields) document) :
    load document = .error (.json .malformed) := by
  have read : ofJson document = .error (.json .malformed) := by
    rw [ofJson, readDocument]
    cases parsed : parse? (.record Config.fields) document with
    | none => rfl
    | some value =>
        obtain ⟨others, rfl, outcome⟩ := parse?_object wantsOctets_fields written parsed
        have doubledOthers : Doubled others := by
          rcases outcome with same | twice
          · exact doubled.of_same same
          · exact .outside (by decide) twice
        simp only [decode, ofValue?_of_doubled doubledOthers]
  rw [load, read]
  rfl

/-- Loading completes what a document gives and checks the result; and a part that is given twice is
refused. -/
theorem load_completes_and_checks :
    (∀ (given : Given) (document : String), given.WrittenIn document →
      Checked given.completed (load document)) ∧
    (∀ (fields : List (Option String × Value)) (document : String),
      Writes (.object fields) document → Doubled fields →
      load document = .error (.json .malformed)) := by
  constructor
  · intro given document written
    rw [load_of_ofJson (Given.ofJson_of_writtenIn written)]
    exact checked_validate given.completed
  · intro fields document written doubled
    exact load_of_doubled doubled written

/-- One document gives the chain alone, beside an unknown part and with a blank; another gives it
twice. -/
theorem load_completes_and_checks_chain :
    load "\x7b\"x\":null, \"chainId\":5\x7d" = .ok { standard with chainId := 5 } ∧
      load "\x7b\"chainId\":1,\"chainId\":2\x7d" = .error (.json .malformed) := by
  obtain ⟨completes, refuses⟩ := load_completes_and_checks
  constructor
  · have blank : Blank [' '] := by simp [Blank, isBlank]
    have spelled : Spells (.fields (named [("x", .null), ("chainId", .natural 5)])) _ :=
      .field blank_nil (spellsText_of_plain (by decide)) blank_nil (spells_bare .null)
        (.lastField blank (spellsText_of_plain (by decide)) blank_nil (spells_bare .natural))
    have written : Writes _ "\x7b\"x\":null, \"chainId\":5\x7d" := spells_bare (.object spelled)
    have stands : Given.StandsFor ⟨none, some 5, none, none, none⟩
        (.object (named [("x", .null), ("chainId", .natural 5)])) :=
      .object rfl ⟨_, rfl, rfl⟩ rfl rfl rfl
    exact (completes _ _ ⟨_, stands, written⟩).accepted.2 (by decide)
  · have spelled : Spells (.fields (named [("chainId", .natural 1), ("chainId", .natural 2)])) _ :=
      .field blank_nil (spellsText_of_plain (by decide)) blank_nil (spells_bare .natural)
        (.lastField blank_nil (spellsText_of_plain (by decide)) blank_nil (spells_bare .natural))
    have written : Writes _ "\x7b\"chainId\":1,\"chainId\":2\x7d" := spells_bare (.object spelled)
    have twice : Twice "chainId" (named [("chainId", .natural 1), ("chainId", .natural 2)]) :=
      Nat.le_refl 2
    exact refuses _ _ written (.outside (by decide) twice)

end Config

end Countersign
