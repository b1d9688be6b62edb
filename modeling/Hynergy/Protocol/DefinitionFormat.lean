import Hynergy.Protocol.Definition
import Hynergy.Protocol.Parsing

/-!
# The format of definition buffers

The bytes of a list of operations on a builder, with numbers as their bits. Every part of the decoder
parses the bytes of its part.
-/

namespace Hynergy

open Lib

/-! ### Operations in bits -/

section Map

variable {F G : Type}

def Bound.map (f : F → G) (bound : Bound F) : Bound G := ⟨f bound.value, bound.inclusive⟩

def ParameterConstraints.map (f : F → G) (constraints : ParameterConstraints F) : ParameterConstraints G where
  lower := constraints.lower.map (Bound.map f)
  upper := constraints.upper.map (Bound.map f)
  nonZero := constraints.nonZero
  reciprocalRange := constraints.reciprocalRange.map fun range => (range.1.map (Bound.map f), range.2.map (Bound.map f))

def ValueRef.map (f : F → G) : ValueRef F → ValueRef G
  | .literal value => .literal (f value)
  | .parameter id => .parameter id

def Element.map (f : F → G) (element : Element F) : Element G :=
  ⟨element.definition, element.terminals, element.parameters.map (ValueRef.map f)⟩

def DeviceDefinitionBuilder.Operation.map (f : F → G) : Operation F → Operation G
  | .addNode => .addNode
  | .addTerminal => .addTerminal
  | .addParameter parameter => .addParameter (parameter.map f)
  | .addElement element => .addElement (element.map f)
  | .addVoltageObserver positive negative => .addVoltageObserver positive negative
  | .addChildObserver element observer => .addChildObserver element observer

end Map

namespace DefinitionCommands

open Decoder (Parses parses_number parses_f64 parses_tagged)

/-- An operation whose numbers are bits. -/
abbrev RawOperation := DeviceDefinitionBuilder.Operation (BitVec 64)

/-! ### Encoding -/

def isInclusive {F : Type} (bound : Option (Bound F)) : Bool := bound.elim false (·.inclusive)

def reciprocalLower {F : Type} (constraints : ParameterConstraints F) : Option (Bound F) :=
  constraints.reciprocalRange.elim none (·.1)

def reciprocalUpper {F : Type} (constraints : ParameterConstraints F) : Option (Bound F) :=
  constraints.reciprocalRange.elim none (·.2)

/-- The flags, from the lowest bit. -/
def flagBits {F : Type} (constraints : ParameterConstraints F) : List Bool :=
  [constraints.lower.isSome, isInclusive constraints.lower, constraints.upper.isSome, isInclusive constraints.upper,
    constraints.nonZero, constraints.reciprocalRange.isSome, (reciprocalLower constraints).isSome,
    isInclusive (reciprocalLower constraints), (reciprocalUpper constraints).isSome,
    isInclusive (reciprocalUpper constraints)]

def flagsOf {F : Type} (constraints : ParameterConstraints F) : BitVec 16 :=
  (BitVec.ofBoolListLE (flagBits constraints)).setWidth 16

def encodeBound (bound : Option (Bound (BitVec 64))) : List Byte :=
  bound.elim [] fun bound => bytesOf 8 bound.value.toNat

def encodeConstraints (constraints : ParameterConstraints (BitVec 64)) : List Byte :=
  bytesOf 2 (flagsOf constraints).toNat ++ (encodeBound constraints.lower ++ (encodeBound constraints.upper ++
    (encodeBound (reciprocalLower constraints) ++ encodeBound (reciprocalUpper constraints))))

def encodeId {kind : IdKind} (id : Id kind) : List Byte := bytesOf 4 id.id

def kindOf : ValueRef (BitVec 64) → Nat
  | .literal _ => valueLiteral
  | .parameter _ => valueParameter

def encodeReference : ValueRef (BitVec 64) → List Byte
  | .literal bits => bytesOf 8 bits.toNat
  | .parameter id => encodeId id

def encodeValue (value : ValueRef (BitVec 64)) : List Byte := bytesOf 1 (kindOf value) ++ encodeReference value

/-- A list after its length. -/
def encodeList {β : Type} (encode : β → List Byte) (list : List β) : List Byte :=
  bytesOf 4 list.length ++ list.flatMap encode

def encodeElement (element : Element (BitVec 64)) : List Byte :=
  bytesOf 4 element.definition.get ++ (encodeList encodeId element.terminals ++ encodeList encodeValue element.parameters)

def tagOf : RawOperation → Nat
  | .addTerminal => addTerminalTag
  | .addNode => addNodeTag
  | .addParameter _ => addParameterTag
  | .addElement _ => addElementTag
  | .addVoltageObserver _ _ => addVoltageObserverTag
  | .addChildObserver _ _ => addChildObserverTag

def payloadOf : RawOperation → List Byte
  | .addTerminal | .addNode => []
  | .addParameter constraints => encodeConstraints constraints
  | .addElement element => encodeElement element
  | .addVoltageObserver positive negative => encodeId positive ++ encodeId negative
  | .addChildObserver element observer => encodeId element ++ encodeId observer

def encodeOperation (operation : RawOperation) : List Byte :=
  bytesOf 2 (tagOf operation) ++ (bytesOf 4 (payloadOf operation).length ++ payloadOf operation)

def encodeOperations (operations : List RawOperation) : List Byte := operations.flatMap encodeOperation

def encodeHeader (count : Nat) : List Byte :=
  definitionBufferMagic ++ (bytesOf 2 definitionBufferVersion ++ (bytesOf 2 0 ++ (bytesOf 4 0 ++ bytesOf 4 count)))

def encodeBuffer (operations : List RawOperation) : List Byte :=
  encodeHeader operations.length ++ encodeOperations operations

/-! ### Flags -/

theorem hasFlag_iff {flags flag : BitVec 16} :
    hasFlag flags flag = true ↔ ∃ i < 16, flags.getLsbD i = true ∧ flag.getLsbD i = true := by
  rw [hasFlag, bne_iff_ne, ne_eq, ← not_iff_not, not_not]
  constructor
  · rintro zero ⟨i, -, bit, bit'⟩
    have both := congrArg (fun bits => BitVec.getLsbD bits i) zero
    simp [bit, bit'] at both
  · intro none'
    refine BitVec.eq_of_getLsbD_eq fun i small => ?_
    by_contra differs
    simp at differs
    exact none' ⟨i, small, differs⟩

/-- A flag of one bit. -/
theorem hasFlag_bit {flags flag : BitVec 16} {k : Nat} (bit : ∀ i < 16, flag.getLsbD i = decide (i = k))
    (small : k < 16) : hasFlag flags flag = flags.getLsbD k := by
  rw [Bool.eq_iff_iff, hasFlag_iff]
  constructor
  · rintro ⟨i, inside, set, only⟩
    rw [bit i inside, decide_eq_true_iff] at only
    exact only ▸ set
  · intro set
    exact ⟨k, small, set, by rw [bit k small, decide_eq_true_iff]⟩

theorem hasFlag_or {flags a b : BitVec 16} : hasFlag flags (a ||| b) = (hasFlag flags a || hasFlag flags b) := by
  rw [Bool.eq_iff_iff, Bool.or_eq_true, hasFlag_iff, hasFlag_iff, hasFlag_iff]
  simp only [BitVec.getLsbD_or, Bool.or_eq_true]
  grind

theorem hasFlag_unknown {flags : BitVec 16} :
    hasFlag flags (~~~constraintKnownFlags) = false ↔ ∀ i, 10 ≤ i → flags.getLsbD i = false := by
  have unknown : ∀ i < 16, (~~~constraintKnownFlags).getLsbD i = decide (10 ≤ i) := by decide
  rw [← Bool.not_eq_true, hasFlag_iff]
  constructor
  · intro none' i high
    by_cases small : i < 16
    · by_contra set
      rw [Bool.not_eq_false] at set
      exact none' ⟨i, small, set, by rw [unknown i small, decide_eq_true_iff]; exact high⟩
    · exact BitVec.getLsbD_of_ge _ _ (by omega)
  · rintro clear ⟨i, small, set, high⟩
    rw [unknown i small, decide_eq_true_iff] at high
    rw [clear i high] at set
    cases set

/-- The flags that are not refused. -/
structure Consistent (flags : BitVec 16) : Prop where
  known : ∀ i, 10 ≤ i → flags.getLsbD i = false
  lower : flags.getLsbD 1 = true → flags.getLsbD 0 = true
  upper : flags.getLsbD 3 = true → flags.getLsbD 2 = true
  reciprocalLower : flags.getLsbD 7 = true → flags.getLsbD 6 = true
  reciprocalUpper : flags.getLsbD 9 = true → flags.getLsbD 8 = true
  range : flags.getLsbD 6 = true ∨ flags.getLsbD 8 = true → flags.getLsbD 5 = true

section Bits

variable {flags : BitVec 16}

theorem hasFlag_lower : hasFlag flags constraintLower = flags.getLsbD 0 := hasFlag_bit (by decide) (by decide)

theorem hasFlag_lowerInclusive : hasFlag flags constraintLowerInclusive = flags.getLsbD 1 :=
  hasFlag_bit (by decide) (by decide)

theorem hasFlag_upper : hasFlag flags constraintUpper = flags.getLsbD 2 := hasFlag_bit (by decide) (by decide)

theorem hasFlag_upperInclusive : hasFlag flags constraintUpperInclusive = flags.getLsbD 3 :=
  hasFlag_bit (by decide) (by decide)

theorem hasFlag_nonZero : hasFlag flags constraintNonZero = flags.getLsbD 4 := hasFlag_bit (by decide) (by decide)

theorem hasFlag_range : hasFlag flags constraintReciprocalRange = flags.getLsbD 5 := hasFlag_bit (by decide) (by decide)

theorem hasFlag_reciprocalLower : hasFlag flags constraintReciprocalLower = flags.getLsbD 6 :=
  hasFlag_bit (by decide) (by decide)

theorem hasFlag_reciprocalLowerInclusive : hasFlag flags constraintReciprocalLowerInclusive = flags.getLsbD 7 :=
  hasFlag_bit (by decide) (by decide)

theorem hasFlag_reciprocalUpper : hasFlag flags constraintReciprocalUpper = flags.getLsbD 8 :=
  hasFlag_bit (by decide) (by decide)

theorem hasFlag_reciprocalUpperInclusive : hasFlag flags constraintReciprocalUpperInclusive = flags.getLsbD 9 :=
  hasFlag_bit (by decide) (by decide)

theorem consistent_iff : refusesFlags flags = false ↔ Consistent flags := by
  simp only [refusesFlags, Bool.or_eq_false_iff, hasFlag_unknown, hasFlag_or, hasFlag_lower, hasFlag_lowerInclusive,
    hasFlag_upper, hasFlag_upperInclusive, hasFlag_range, hasFlag_reciprocalLower, hasFlag_reciprocalLowerInclusive,
    hasFlag_reciprocalUpper, hasFlag_reciprocalUpperInclusive]
  constructor
  · rintro ⟨⟨⟨⟨⟨known, lower⟩, upper⟩, reciprocalLower⟩, reciprocalUpper⟩, range⟩
    constructor
    · exact known
    all_goals grind
  · rintro ⟨known, lower, upper, reciprocalLower, reciprocalUpper, range⟩
    refine ⟨⟨⟨⟨⟨known, ?_⟩, ?_⟩, ?_⟩, ?_⟩, ?_⟩
    all_goals grind

/-- The bits that say whether a bound is there and whether it is inclusive. -/
def Matches (flags : BitVec 16) (present inclusive : Nat) (bound : Option (Bound (BitVec 64))) : Prop :=
  bound.isSome = flags.getLsbD present ∧ isInclusive bound = flags.getLsbD inclusive

theorem flagsOf_bit {c : ParameterConstraints (BitVec 64)} {i : Nat} (small : i < 16) :
    (flagsOf c).getLsbD i = (flagBits c).getD i false := by
  rw [flagsOf, BitVec.getLsbD_setWidth, BitVec.getLsbD_ofBoolListLE, decide_eq_true small, Bool.true_and]

theorem flagsOf_eq_iff (known : ∀ i, 10 ≤ i → flags.getLsbD i = false) {c : ParameterConstraints (BitVec 64)} :
    flagsOf c = flags ↔ Matches flags 0 1 c.lower ∧ Matches flags 2 3 c.upper ∧ c.nonZero = flags.getLsbD 4 ∧
      c.reciprocalRange.isSome = flags.getLsbD 5 ∧ Matches flags 6 7 (reciprocalLower c) ∧
      Matches flags 8 9 (reciprocalUpper c) := by
  constructor
  · rintro rfl
    have bit (i : Nat) (small : i < 16) : (flagBits c).getD i false = (flagsOf c).getLsbD i := (flagsOf_bit small).symm
    exact ⟨⟨bit 0 (by decide), bit 1 (by decide)⟩, ⟨bit 2 (by decide), bit 3 (by decide)⟩, bit 4 (by decide),
      bit 5 (by decide), ⟨bit 6 (by decide), bit 7 (by decide)⟩, bit 8 (by decide), bit 9 (by decide)⟩
  · rintro ⟨⟨h0, h1⟩, ⟨h2, h3⟩, h4, h5, ⟨h6, h7⟩, h8, h9⟩
    refine BitVec.eq_of_getLsbD_eq fun i small => ?_
    rw [flagsOf_bit small]
    match i with
    | 0 => exact h0
    | 1 => exact h1
    | 2 => exact h2
    | 3 => exact h3
    | 4 => exact h4
    | 5 => exact h5
    | 6 => exact h6
    | 7 => exact h7
    | 8 => exact h8
    | 9 => exact h9
    | i + 10 =>
      rw [known _ (Nat.le_add_left 10 i)]
      rfl

/-- An inclusive bound is there. -/
theorem isSome_of_inclusive {bound : Option (Bound (BitVec 64))} (inclusive : isInclusive bound = true) :
    bound.isSome = true := by
  cases bound with
  | none => cases inclusive
  | some bound => rfl

/-- What constraints say of themselves is consistent. -/
theorem flagsOf_consistent (c : ParameterConstraints (BitVec 64)) : Consistent (flagsOf c) := by
  have known : ∀ i, 10 ≤ i → (flagsOf c).getLsbD i = false := by
    intro i high
    by_cases small : i < 16
    · rw [flagsOf_bit small]
      rw [List.getD_eq_getElem?_getD, List.getElem?_eq_none high]
      rfl
    · exact BitVec.getLsbD_of_ge _ _ (by omega)
  obtain ⟨⟨h0, h1⟩, ⟨h2, h3⟩, h4, h5, ⟨h6, h7⟩, h8, h9⟩ := (flagsOf_eq_iff known (c := c)).mp rfl
  refine ⟨known, ?_, ?_, ?_, ?_, ?_⟩
  · rw [← h1, ← h0]
    exact isSome_of_inclusive
  · rw [← h3, ← h2]
    exact isSome_of_inclusive
  · rw [← h7, ← h6]
    exact isSome_of_inclusive
  · rw [← h9, ← h8]
    exact isSome_of_inclusive
  · rw [← h6, ← h8, ← h5]
    cases range : c.reciprocalRange with
    | none => simp [reciprocalLower, reciprocalUpper, range]
    | some range => exact fun _ => rfl

end Bits

/-! ### Parts -/

/-- An error in a command, at an offset inside the input. -/
def Located (commandIndex limit : Nat) (error : DefinitionRegistrationError) : Prop :=
  ∃ kind offset, error = .new kind commandIndex offset ∧ offset ≤ limit

variable {F : Type} {fromBits : BitVec 64 → F} {self : Decoder} {commandIndex limit : Nat}

section Parts

variable (sound : self.Sound) (below : self.limit ≤ limit)

include below in
theorem located_truncated : Located commandIndex limit (truncated commandIndex self.truncated) :=
  ⟨_, _, rfl, below⟩

include sound below

theorem located_here (kind : DefinitionRegistrationErrorKind) :
    Located commandIndex limit (.new kind commandIndex self.offset) :=
  ⟨kind, _, rfl, sound.offset_le.trans below⟩

theorem number_parses (width : Nat) : Parses self (Located commandIndex limit)
    (read commandIndex (Decoder.readNumber width)) (· < 256 ^ width) (bytesOf width) id :=
  parses_number sound (located_truncated below) width

theorem f64_parses : Parses self (Located commandIndex limit) (read commandIndex Decoder.readF64)
    (fun _ : BitVec 64 => True) (fun bits => bytesOf 8 bits.toNat) id :=
  parses_f64 sound (located_truncated below)

theorem readId_parses {kind : IdKind} (bound : kind.bound = 2 ^ 32) : Parses self (Located commandIndex limit)
    (readId kind commandIndex) (fun _ : Id kind => True) encodeId id := by
  refine (number_parses sound below 4).check (fun id : Id kind => id.id) id (fun id _ => bound ▸ id.fits) (fun id after _ => ?_)
    fun raw small => Or.inl ⟨⟨raw, bound ▸ small⟩, trivial, rfl⟩
  show (Call.expect (Id.ofIndex? id.id) : Decode (Id kind)) after = .ok id after
  rw [Id.ofIndex?_eq_some.mpr rfl]
  rfl

theorem decodeValue_parses : Parses self (Located commandIndex limit) (decodeValue fromBits commandIndex)
    (fun _ => True) encodeValue (ValueRef.map fromBits) := by
  refine .get_bind (parses_tagged sound (located_truncated below) kindOf encodeReference _ (fun value => ?_) ?_)
  · cases value <;> (simp only [kindOf]; decide)
  intro kind after sound' same
  have below' : after.limit ≤ limit := same.trans_le below
  match kind with
  | 0 =>
    refine ((f64_parses sound' below').map fun bits => ValueRef.literal (fromBits bits)).image ValueRef.literal
      (fun bits _ => ⟨rfl, rfl, rfl⟩) fun value is => ?_
    cases value with
    | literal bits => exact ⟨bits, trivial, rfl⟩
    | parameter id => exact absurd is (by simp [kindOf])
  | 1 =>
    refine ((readId_parses sound' below' rfl).map ValueRef.parameter).image ValueRef.parameter
      (fun id _ => ⟨rfl, rfl, rfl⟩) fun value is => ?_
    cases value with
    | literal bits => exact absurd is (by simp [kindOf])
    | parameter id => exact ⟨id, trivial, rfl⟩
  | n + 2 =>
    refine .fails rfl (located_here sound below _) fun value is => ?_
    cases value with
    | literal bits => exact absurd is (by simp [kindOf])
    | parameter id => exact absurd is (by simp [kindOf, valueParameter])

/-! ### Lists -/

omit sound below in
theorem repeated_parses {α β : Type} {call : Decode α} {fine : β → Prop} {encode : β → List Byte} {value : β → α} :
    ∀ (n : Nat) {self : Decoder}, self.Sound → self.limit ≤ limit →
      (∀ after : Decoder, after.Sound → after.limit ≤ limit →
        Parses after (Located commandIndex limit) call fine encode value) →
      Parses self (Located commandIndex limit) (repeated call n)
        (fun list : List β => list.length = n ∧ ∀ b ∈ list, fine b) (fun list => list.flatMap encode) (List.map value) := by
  intro n
  induction n with
  | zero =>
    intro self _ _ _
    refine (Parses.pure []).image (fun _ => []) (fun _ _ => ⟨⟨rfl, fun b member => absurd member List.not_mem_nil⟩, rfl, rfl⟩) ?_
    rintro list ⟨empty, -⟩
    exact ⟨(), trivial, (List.length_eq_zero_iff.mp empty).symm⟩
  | succ n ih =>
    intro self sound below each
    refine ((each self sound below).bind sound (fun _ (list : List β) => list.length = n ∧ ∀ b ∈ list, fine b)
      (fun _ list => list.flatMap encode) (fun b list => value b :: list.map value)
      fun b tail _ _ sound' => (ih sound' below each).map (value b :: ·)).image (fun p => p.1 :: p.2) ?_ ?_
    · rintro ⟨b, list⟩ ⟨isFine, length, all⟩
      refine ⟨⟨congrArg (· + 1) length, fun other member => ?_⟩, List.flatMap_cons, rfl⟩
      exact (List.mem_cons.mp member).elim (fun same => same ▸ isFine) (all other)
    · rintro list ⟨length, all⟩
      cases list with
      | nil => cases length
      | cons b list =>
        exact ⟨(b, list), ⟨all b List.mem_cons_self, Nat.succ.inj length,
          fun other member => all other (List.mem_cons_of_mem _ member)⟩, rfl⟩

theorem decodeList_parses {α β : Type} {call : Decode α} {fine : β → Prop} {encode : β → List Byte} {value : β → α}
    {size : Nat} (positive : 0 < size) (sizes : ∀ b, fine b → size ≤ (encode b).length)
    (each : ∀ after : Decoder, after.Sound → after.limit ≤ limit →
      Parses after (Located commandIndex limit) call fine encode value) :
    Parses self (Located commandIndex limit) (decodeCount size commandIndex >>= fun count => repeated call count)
      (fun list : List β => list.length < 2 ^ 32 ∧ ∀ b ∈ list, fine b) (encodeList encode) (List.map value) := by
  unfold decodeCount
  refine Parses.assoc.mpr (.get_bind (Parses.assoc.mpr ?_))
  refine ((number_parses sound below 4).bind sound (fun n (list : List β) => list.length = n ∧ ∀ b ∈ list, fine b)
    (fun _ list => list.flatMap encode) (fun _ => List.map value) fun n tail _ _ sound' => ?_).image Prod.snd ?_ ?_
  · have repeats := repeated_parses n sound' below each
    generalize self.advance (bytesOf 4 n).length = after at sound' repeats
    have remaining : after.remaining = some after.rest.length := by
      have inside : after.position ≤ after.input.length := sound'
      rw [Decoder.remaining, if_pos inside, Decoder.length_rest]
    refine Parses.assoc.mpr (.get_bind (Parses.assoc.mpr ?_))
    rw [remaining]
    by_cases many : n > after.rest.length / size
    · constructor
      · rintro list rest' ⟨rfl, all⟩ front
        have enough := Parses.flatMap_length sizes all
        rw [front, List.length_append, gt_iff_lt, Nat.div_lt_iff_lt_mul positive] at many
        omega
      · refine Or.inr ⟨_, after, ?_, located_here sound below .invalidCount⟩
        rw [id, Call.expect_some_bind]
        rw [Call.bind_bind]
        exact Call.rejectIf_bind_pos many _
    · have accepted : ∀ (last : Nat → Decode (List α)),
          (Call.expect (some after.rest.length) >>= fun remaining => (Call.rejectIf (n > remaining / size)
            (.new .invalidCount commandIndex self.offset) >>= fun _ => (pure n : Decode Nat)) >>= last) after = last n after := by
        intro last
        rw [Call.expect_some_bind, Call.bind_bind, Call.rejectIf_bind_neg many]
        rfl
      constructor
      · intro list rest' isFine front
        exact (accepted _).trans (repeats.front list rest' isFine front)
      · rcases repeats.cases with found | ⟨error, last, failed, isBad⟩
        · exact Or.inl found
        · exact Or.inr ⟨error, last, (accepted _).trans failed, isBad⟩
  · rintro ⟨n, list⟩ ⟨small, same, all⟩
    obtain rfl : list.length = n := same
    exact ⟨⟨small, all⟩, rfl, rfl⟩
  · rintro list ⟨small, all⟩
    exact ⟨(list.length, list), ⟨small, rfl, all⟩, rfl⟩

/-! ### Elements -/

/-- The lists of an element have lengths that fit. -/
def ElementFits (element : Element (BitVec 64)) : Prop :=
  element.terminals.length < 2 ^ 32 ∧ element.parameters.length < 2 ^ 32

theorem definitionId_parses : Parses self (Located commandIndex limit)
    (read commandIndex Decoder.readU32 >>= fun raw =>
      Call.okOr (nonZeroId? raw) (.new .invalidDefinitionId commandIndex self.offset))
    (fun _ : DefinitionId => True) (fun definition => bytesOf 4 definition.get) id := by
  refine (number_parses sound below 4).check (fun definition : DefinitionId => definition.get) id
    (fun definition _ => definition.fits) (fun definition after _ => ?_) fun raw small => ?_
  · rw [id, nonZeroId?, dif_pos ⟨definition.pos, definition.fits⟩]
    rfl
  · by_cases positive : 0 < raw
    · exact Or.inl ⟨⟨raw, positive, small⟩, trivial, rfl⟩
    · refine Or.inr fun after => ⟨_, ?_, located_here sound below .invalidDefinitionId⟩
      rw [id, nonZeroId?, dif_neg fun both => positive both.1]
      rfl

omit sound below in
theorem length_encodeValue (value : ValueRef (BitVec 64)) : 5 ≤ (encodeValue value).length := by
  cases value <;> simp [encodeValue, encodeReference, encodeId]

/-- Ids in a list of their own. -/
theorem decodeTerminals_parses : Parses self (Located commandIndex limit)
    (decodeCount 4 commandIndex >>= fun count => repeated (readId .node commandIndex) count)
    (fun list : List NodeId => list.length < 2 ^ 32 ∧ ∀ b ∈ list, (fun _ => True) b) (encodeList encodeId) (List.map id) :=
  decodeList_parses sound below (by decide) (fun _ _ => Nat.le_of_eq (length_bytesOf 4 _).symm)
    fun _ sound below => readId_parses sound below rfl

theorem decodeParameters_parses : Parses self (Located commandIndex limit)
    (decodeCount (1 + 4) commandIndex >>= fun count => repeated (decodeValue fromBits commandIndex) count)
    (fun list : List (ValueRef (BitVec 64)) => list.length < 2 ^ 32 ∧ ∀ b ∈ list, (fun _ => True) b) (encodeList encodeValue)
    (List.map (ValueRef.map fromBits)) :=
  decodeList_parses sound below (by decide) (fun value (_ : True) => length_encodeValue value)
    fun _ sound below => decodeValue_parses sound below

theorem decodeElement_parses : Parses self (Located commandIndex limit) (decodeElement fromBits commandIndex)
    ElementFits encodeElement (Element.map fromBits) := by
  unfold decodeElement
  refine .get_bind (Parses.assoc.mp ?_)
  refine ((definitionId_parses sound below).bind sound
    (fun _ (p : List NodeId × List (ValueRef (BitVec 64))) =>
      (p.1.length < 2 ^ 32 ∧ ∀ b ∈ p.1, (fun _ => True) b) ∧ p.2.length < 2 ^ 32 ∧ ∀ b ∈ p.2, (fun _ => True) b)
    (fun _ p => encodeList encodeId p.1 ++ encodeList encodeValue p.2)
    (fun definition p => (⟨definition, p.1.map id, p.2.map (ValueRef.map fromBits)⟩ : Element F))
    fun definition tail _ _ sound' => Parses.assoc.mp ?_).image
      (fun p => (⟨p.1, p.2.1, p.2.2⟩ : Element (BitVec 64))) ?_ ?_
  · refine (decodeTerminals_parses sound' below).bind sound'
      (fun _ (list : List (ValueRef (BitVec 64))) => list.length < 2 ^ 32 ∧ ∀ b ∈ list, (fun _ => True) b)
      (fun _ => encodeList encodeValue)
      (fun nodes list => (⟨definition, nodes.map id, list.map (ValueRef.map fromBits)⟩ : Element F))
      fun nodes tail _ _ sound' => Parses.assoc.mp ?_
    exact (decodeParameters_parses sound' below).map fun parameters =>
      (⟨definition, nodes.map id, parameters⟩ : Element F)
  · rintro ⟨definition, nodes, list⟩ ⟨-, ⟨small, -⟩, small', -⟩
    refine ⟨⟨small, small'⟩, rfl, ?_⟩
    simp only [Element.map, List.map_id]
  · rintro ⟨definition, nodes, list⟩ ⟨small, small'⟩
    exact ⟨(definition, nodes, list), ⟨trivial, ⟨small, fun _ _ => trivial⟩, small', fun _ _ => trivial⟩, rfl⟩

end Parts

/-! ### Constraints -/

theorem read_map {α β : Type} {call : Decoder.Read Truncated α} {f : α → β} :
    read commandIndex (call >>= fun a => pure (f a)) = read commandIndex call >>= fun a => pure (f a) := by
  funext decoder
  cases run : call decoder with
  | ok value after =>
    have inner : (call >>= fun a => (pure (f a) : Decoder.Read Truncated β) : Decoder.Read Truncated β) decoder =
      .ok (f value) after := Call.bind_ok run
    have outer : (read commandIndex call >>= fun a => (pure (f a) : Decode β) : Decode β) decoder =
      .ok (f value) after := Call.bind_ok (Call.mapErr_ok run)
    exact (Call.mapErr_ok inner).trans outer.symm
  | err error after =>
    have inner : (call >>= fun a => (pure (f a) : Decoder.Read Truncated β) : Decoder.Read Truncated β) decoder =
      .err error after := Call.bind_err run
    have outer : (read commandIndex call >>= fun a => (pure (f a) : Decode β) : Decode β) decoder =
      .err (truncated commandIndex error) after := Call.bind_err (Call.mapErr_err run)
    exact (Call.mapErr_err inner).trans outer.symm
  | panic => simp only [read, Call.mapErr, Call.zoom, bind, Call.bind, id, run]

section Constraints

variable (sound : self.Sound) (below : self.limit ≤ limit)

include sound below

theorem decodeBound_parses {flags present inclusive : BitVec 16} {i j : Nat}
    (atPresent : hasFlag flags present = flags.getLsbD i) (atInclusive : hasFlag flags inclusive = flags.getLsbD j)
    (consistent : flags.getLsbD j = true → flags.getLsbD i = true) :
    Parses self (Located commandIndex limit) (read commandIndex (decodeBound fromBits flags present inclusive))
      (Matches flags i j) encodeBound (Option.map (Bound.map fromBits)) := by
  unfold decodeBound
  rw [atPresent, atInclusive]
  cases there : flags.getLsbD i with
  | false =>
    have exclusive : flags.getLsbD j = false := by
      rw [← Bool.not_eq_true]
      exact fun set => Bool.false_ne_true (there.symm.trans (consistent set))
    refine (Parses.pure (none : Option (Bound F))).image (fun _ => none) (fun _ _ => ⟨⟨there.symm, exclusive.symm⟩, rfl, rfl⟩) ?_
    rintro bound ⟨isSome, -⟩
    cases bound with
    | none => exact ⟨(), trivial, rfl⟩
    | some bound => exact absurd (isSome.trans there) (by simp)
  | true =>
    have tests : ¬ true = false := Bool.true_eq_false ▸ id
    rw [if_neg tests, read_map]
    refine ((f64_parses sound below).map fun bits =>
      some (⟨fromBits bits, flags.getLsbD j⟩ : Bound F)).image (fun bits => some (⟨bits, flags.getLsbD j⟩ : Bound (BitVec 64)))
      (fun bits _ => ⟨⟨there.symm, rfl⟩, rfl, rfl⟩) ?_
    rintro bound ⟨isSome, same⟩
    cases bound with
    | none => exact absurd (isSome.trans there) (by simp)
    | some bound => exact ⟨bound.value, trivial, by rw [← same]; rfl⟩

/-- The two bounds of a range, or neither. -/
theorem decodeBounds_parses {α : Type} {flags present inclusive present' inclusive' : BitVec 16} {i j i' j' : Nat}
    (atPresent : hasFlag flags present = flags.getLsbD i) (atInclusive : hasFlag flags inclusive = flags.getLsbD j)
    (consistent : flags.getLsbD j = true → flags.getLsbD i = true)
    (atPresent' : hasFlag flags present' = flags.getLsbD i') (atInclusive' : hasFlag flags inclusive' = flags.getLsbD j')
    (consistent' : flags.getLsbD j' = true → flags.getLsbD i' = true)
    {δ : Type} {next : Option (Bound F) → Option (Bound F) → Decode α} {fine : δ → Prop} {encode : δ → List Byte}
    {value : Option (Bound (BitVec 64)) → Option (Bound (BitVec 64)) → δ → α}
    (rest : ∀ lower upper (after : Decoder), after.Sound → after.limit ≤ limit →
      Parses after (Located commandIndex limit) (next (lower.map (Bound.map fromBits)) (upper.map (Bound.map fromBits)))
        fine encode (value lower upper)) :
    Parses self (Located commandIndex limit)
      (read commandIndex (decodeBound fromBits flags present inclusive) >>= fun lower =>
        read commandIndex (decodeBound fromBits flags present' inclusive') >>= fun upper => next lower upper)
      (fun p : Option (Bound (BitVec 64)) × Option (Bound (BitVec 64)) × δ =>
        Matches flags i j p.1 ∧ Matches flags i' j' p.2.1 ∧ fine p.2.2)
      (fun p => encodeBound p.1 ++ (encodeBound p.2.1 ++ encode p.2.2)) (fun p => value p.1 p.2.1 p.2.2) := by
  refine (decodeBound_parses sound below atPresent atInclusive consistent).bind sound
    (fun _ (p : Option (Bound (BitVec 64)) × δ) => Matches flags i' j' p.1 ∧ fine p.2)
    (fun _ p => encodeBound p.1 ++ encode p.2) (fun lower p => value lower p.1 p.2) fun lower tail _ _ sound' => ?_
  exact (decodeBound_parses sound' below atPresent' atInclusive' consistent').bind sound' (fun _ => fine) (fun _ => encode)
    (value lower) fun upper tail _ _ sound' => rest lower upper _ sound' below

/-- What follows flags is parsed to constraints that have these flags. -/
theorem constraintBounds_parses {flags : BitVec 16} {error : DefinitionRegistrationError}
    (located : Located commandIndex limit error) :
    Parses self (Located commandIndex limit)
      (do
        Call.rejectIf (refusesFlags flags = true) error
        let lower ← read commandIndex (decodeBound fromBits flags constraintLower constraintLowerInclusive)
        let upper ← read commandIndex (decodeBound fromBits flags constraintUpper constraintUpperInclusive)
        let nonZero := hasFlag flags constraintNonZero
        if hasFlag flags constraintReciprocalRange = false then pure { lower, upper, nonZero, reciprocalRange := none }
        else do
          let reciprocalLower ← read commandIndex
            (decodeBound fromBits flags constraintReciprocalLower constraintReciprocalLowerInclusive)
          let reciprocalUpper ← read commandIndex
            (decodeBound fromBits flags constraintReciprocalUpper constraintReciprocalUpperInclusive)
          pure { lower, upper, nonZero, reciprocalRange := some (reciprocalLower, reciprocalUpper) })
      (fun c : ParameterConstraints (BitVec 64) => flagsOf c = flags)
      (fun c => encodeBound c.lower ++ (encodeBound c.upper ++
        (encodeBound (reciprocalLower c) ++ encodeBound (reciprocalUpper c))))
      (ParameterConstraints.map fromBits) := by
  cases refused : refusesFlags flags with
  | true =>
    refine .fails (Call.rejectIf_bind_pos rfl _) located fun c same => ?_
    have accepted := consistent_iff.mpr (flagsOf_consistent c)
    rw [same, refused] at accepted
    cases accepted
  | false =>
    have consistent := consistent_iff.mp refused
    refine .congr (Call.rejectIf_bind_neg Bool.false_ne_true _) ?_
    rw [hasFlag_nonZero, hasFlag_range]
    have same (c : ParameterConstraints (BitVec 64)) := flagsOf_eq_iff consistent.known (c := c)
    cases range : flags.getLsbD 5 with
    | false =>
      have clear6 : flags.getLsbD 6 = false := by grind [consistent.range]
      have clear7 : flags.getLsbD 7 = false := by grind [consistent.reciprocalLower]
      have clear8 : flags.getLsbD 8 = false := by grind [consistent.range]
      have clear9 : flags.getLsbD 9 = false := by grind [consistent.reciprocalUpper]
      refine (decodeBounds_parses sound below hasFlag_lower hasFlag_lowerInclusive consistent.lower hasFlag_upper
        hasFlag_upperInclusive consistent.upper fun lower upper after _ _ => Parses.pure _).image
        (fun p => (⟨p.1, p.2.1, flags.getLsbD 4, none⟩ : ParameterConstraints (BitVec 64))) ?_ ?_
      · rintro ⟨lower, upper, ⟨⟩⟩ ⟨atLower, atUpper, -⟩
        refine ⟨(same _).mpr ⟨atLower, atUpper, rfl, range.symm, ⟨clear6.symm, clear7.symm⟩, clear8.symm, clear9.symm⟩, rfl, rfl⟩
      · intro c isFine
        obtain ⟨atLower, atUpper, nonZero, none', -⟩ := (same c).mp isFine
        rw [range, Option.isSome_eq_false_iff, Option.isNone_iff_eq_none] at none'
        exact ⟨(c.lower, c.upper, ()), ⟨atLower, atUpper, trivial⟩, by rw [← nonZero, ← none']⟩
    | true =>
      refine (decodeBounds_parses sound below hasFlag_lower hasFlag_lowerInclusive consistent.lower hasFlag_upper
        hasFlag_upperInclusive consistent.upper fun lower upper after sound below =>
          decodeBounds_parses sound below hasFlag_reciprocalLower hasFlag_reciprocalLowerInclusive
            consistent.reciprocalLower hasFlag_reciprocalUpper hasFlag_reciprocalUpperInclusive
            consistent.reciprocalUpper fun reciprocalLower reciprocalUpper after _ _ => Parses.pure _).image
        (fun p => (⟨p.1, p.2.1, flags.getLsbD 4, some (p.2.2.1, p.2.2.2.1)⟩ : ParameterConstraints (BitVec 64))) ?_ ?_
      · rintro ⟨lower, upper, reciprocalLower, reciprocalUpper, ⟨⟩⟩ ⟨atLower, atUpper, atLower', atUpper', -⟩
        refine ⟨(same _).mpr ⟨atLower, atUpper, rfl, range.symm, atLower', atUpper'⟩, ?_, rfl⟩
        simp only [List.append_nil]
        rfl
      · intro c isFine
        obtain ⟨atLower, atUpper, nonZero, some', atLower', atUpper'⟩ := (same c).mp isFine
        rw [range, Option.isSome_iff_exists] at some'
        obtain ⟨⟨reciprocalLower, reciprocalUpper⟩, is⟩ := some'
        refine ⟨(c.lower, c.upper, reciprocalLower, reciprocalUpper, ()), ⟨atLower, atUpper, ?_, ?_, trivial⟩, ?_⟩
        · rw [DefinitionCommands.reciprocalLower, is] at atLower'
          exact atLower'
        · rw [DefinitionCommands.reciprocalUpper, is] at atUpper'
          exact atUpper'
        · rw [← nonZero, ← is]

theorem decodeConstraints_parses : Parses self (Located commandIndex limit) (decodeConstraints fromBits commandIndex)
    (fun _ => True) encodeConstraints (ParameterConstraints.map fromBits) := by
  unfold decodeConstraints
  refine .get_bind ?_
  refine ((number_parses sound below 2).bind sound
    (fun raw (c : ParameterConstraints (BitVec 64)) => flagsOf c = BitVec.ofNat 16 raw)
    (fun _ c => encodeBound c.lower ++ (encodeBound c.upper ++
      (encodeBound (reciprocalLower c) ++ encodeBound (reciprocalUpper c))))
    (fun _ => ParameterConstraints.map fromBits) fun raw tail small _ sound' => ?_).image Prod.snd ?_ ?_
  · have below' : (self.advance (bytesOf 2 raw).length).limit ≤ limit := below
    generalize self.advance (bytesOf 2 raw).length = after at sound' below'
    exact constraintBounds_parses sound' below' (located_here sound below _)
  · rintro ⟨raw, c⟩ ⟨small, same⟩
    have small' : raw < 2 ^ 16 := small
    have raw' : (flagsOf c).toNat = raw := by
      rw [same, BitVec.toNat_ofNat, Nat.mod_eq_of_lt small']
    exact ⟨trivial, by rw [encodeConstraints, raw'], rfl⟩
  · intro c _
    have small : (flagsOf c).toNat < 256 ^ 2 := Nat.lt_of_lt_of_le (flagsOf c).isLt (by decide)
    have same : flagsOf c = BitVec.ofNat 16 (flagsOf c).toNat := by rw [BitVec.ofNat_toNat, BitVec.setWidth_eq]
    generalize (flagsOf c).toNat = raw at small same
    exact ⟨(raw, c), ⟨small, same⟩, rfl⟩

end Constraints

end DefinitionCommands

end Hynergy
