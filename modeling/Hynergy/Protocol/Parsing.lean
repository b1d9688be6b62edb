import Hynergy.Protocol.Decoder

/-!
# Calls that parse a format

A call parses a format where it reads what the format writes and nothing else: at the front of what is left
stands the encoding of a value, which it returns, or it fails.
-/

namespace Hynergy

open Lib

namespace Decoder

variable {α β γ δ ε : Type} {self : Decoder} {bad : ε → Prop}

/-- The end of the input, as an offset. -/
def limit (self : Decoder) : Nat := self.baseOffset + self.input.length

@[simp] theorem limit_advance (self : Decoder) (length : Nat) : (self.advance length).limit = self.limit := rfl

theorem Sound.offset_le (h : self.Sound) : self.offset ≤ self.limit := Nat.add_le_add_left h _

/-- At this decoder the call reads the encoding of a fine value, or fails with a bad error. -/
structure Parses (decoder : Decoder) (bad : ε → Prop) (call : Read ε α) (fine : β → Prop) (encode : β → List Byte)
    (value : β → α) : Prop where
  front : ∀ b tail, fine b → decoder.rest = encode b ++ tail →
    call decoder = .ok (value b) (decoder.advance (encode b).length)
  cases : (∃ b tail, fine b ∧ decoder.rest = encode b ++ tail) ∨
    ∃ error after, call decoder = .err error after ∧ bad error

namespace Parses

variable {call : Read ε α} {fine : β → Prop} {encode : β → List Byte} {value : β → α}

theorem bind (h : Parses self bad call fine encode value) (sound : self.Sound) {next : α → Read ε γ}
    (fine' : β → δ → Prop) (encode' : β → δ → List Byte) (value' : β → δ → γ)
    (rest : ∀ b tail, fine b → self.rest = encode b ++ tail → (self.advance (encode b).length).Sound →
      Parses (self.advance (encode b).length) bad (next (value b)) (fine' b) (encode' b) (value' b)) :
    Parses self bad (call >>= next) (fun p : β × δ => fine p.1 ∧ fine' p.1 p.2) (fun p => encode p.1 ++ encode' p.1 p.2)
      fun p => value' p.1 p.2 := by
  constructor
  · rintro ⟨b, d⟩ tail ⟨isFine, isFine'⟩ front
    rw [List.append_assoc] at front
    have parses := rest b _ isFine front (sound_after sound front rfl)
    rw [Call.bind_ok (h.front b _ isFine front), parses.front d tail isFine' (rest_after front rfl), advance_advance,
      List.length_append]
  · rcases h.cases with ⟨b, tail, isFine, front⟩ | ⟨error, after, failed, isBad⟩
    · have parses := rest b tail isFine front (sound_after sound front rfl)
      rcases parses.cases with ⟨d, tail', isFine', front'⟩ | ⟨error, after, failed, isBad⟩
      · refine Or.inl ⟨(b, d), tail', ⟨isFine, isFine'⟩, ?_⟩
        rw [front, ← rest_after front rfl, front', List.append_assoc]
      · exact Or.inr ⟨error, after, (Call.bind_ok (h.front b tail isFine front)).trans failed, isBad⟩
    · exact Or.inr ⟨error, after, Call.bind_err failed, isBad⟩

theorem get_bind {next : Decoder → Read ε α} (h : Parses self bad (next self) fine encode value) :
    Parses self bad (Call.get >>= next) fine encode value := ⟨h.front, h.cases⟩

theorem congr {other : Read ε α} (same : other self = call self) (h : Parses self bad call fine encode value) :
    Parses self bad other fine encode value :=
  ⟨fun b tail isFine front => same.trans (h.front b tail isFine front),
    h.cases.imp_right fun ⟨error, after, failed, isBad⟩ => ⟨error, after, same.trans failed, isBad⟩⟩

theorem pure (a : α) : Parses self bad (Pure.pure a) (fun _ : Unit => True) (fun _ => []) fun _ => a :=
  ⟨fun _ _ _ _ => rfl, Or.inl ⟨(), self.rest, trivial, rfl⟩⟩

/-- No value is fine. -/
theorem fails {error : ε} {after : Decoder} (failed : call self = .err error after) (isBad : bad error)
    (none' : ∀ b, ¬ fine b) : Parses self bad call fine encode value :=
  ⟨fun b _ isFine => (none' b isFine).elim, Or.inr ⟨error, after, failed, isBad⟩⟩

/-- The call is a sequence, however it is bracketed. -/
theorem assoc {γ' : Type} {next : α → Read ε γ} {last : γ → Read ε γ'} {fine : δ → Prop} {encode : δ → List Byte}
    {value : δ → γ'} :
    Parses self bad ((call >>= next) >>= last) fine encode value ↔
      Parses self bad (call >>= fun a => next a >>= last) fine encode value := by
  have same : (call >>= next) >>= last = call >>= fun a => next a >>= last := funext fun _ => Call.bind_bind
  rw [same]

/-- The same format, of values in another form. -/
theorem image (h : Parses self bad call fine encode value) {fine' : δ → Prop} {encode' : δ → List Byte} {value' : δ → α}
    (form : β → δ) (into : ∀ b, fine b → fine' (form b) ∧ encode' (form b) = encode b ∧ value' (form b) = value b)
    (onto : ∀ d, fine' d → ∃ b, fine b ∧ form b = d) : Parses self bad call fine' encode' value' := by
  constructor
  · intro d tail isFine front
    obtain ⟨b, isFine', rfl⟩ := onto d isFine
    obtain ⟨-, same, same'⟩ := into b isFine'
    rw [same] at front ⊢
    rw [same']
    exact h.front b tail isFine' front
  · rcases h.cases with ⟨b, tail, isFine, front⟩ | failed
    · obtain ⟨isFine', same, -⟩ := into b isFine
      exact Or.inl ⟨form b, tail, isFine', by rw [same, front]⟩
    · exact Or.inr failed

/-- A call and a check of its result, which keeps the decoder. -/
theorem check (h : Parses self bad call fine encode value) {next : α → Read ε γ} {fine' : δ → Prop} (form : δ → β)
    (value' : δ → γ) (into : ∀ d, fine' d → fine (form d))
    (accepts : ∀ d after, fine' d → next (value (form d)) after = .ok (value' d) after)
    (onto : ∀ b, fine b → (∃ d, fine' d ∧ form d = b) ∨ ∀ after, ∃ error, next (value b) after = .err error after ∧ bad error) :
    Parses self bad (call >>= next) fine' (fun d => encode (form d)) value' := by
  constructor
  · intro d tail isFine front
    rw [Call.bind_ok (h.front (form d) tail (into d isFine) front), accepts d _ isFine]
  · rcases h.cases with ⟨b, tail, isFine, front⟩ | ⟨error, after, failed, isBad⟩
    · rcases onto b isFine with ⟨d, isFine', rfl⟩ | rejects
      · exact Or.inl ⟨d, tail, isFine', front⟩
      · obtain ⟨error, failed, isBad⟩ := rejects (self.advance (encode b).length)
        exact Or.inr ⟨error, _, (Call.bind_ok (h.front b tail isFine front)).trans failed, isBad⟩
    · exact Or.inr ⟨error, after, Call.bind_err failed, isBad⟩

/-- A part that has to be as expected. -/
theorem constant {call : Read ε β} (h : Parses self bad call fine encode id) (sound : self.Sound) {expected : β}
    (isFine : fine expected) [DecidableEq β] {error : ε} (isBad : bad error) {next : Read ε γ} {fine' : δ → Prop}
    {encode' : δ → List Byte} {value' : δ → γ}
    (rest : ∀ after : Decoder, after.Sound → after.limit = self.limit → Parses after bad next fine' encode' value') :
    Parses self bad (call >>= fun b => Call.rejectIf (b ≠ expected) error >>= fun _ => next) fine'
      (fun d => encode expected ++ encode' d) value' := by
  refine (h.bind sound (fun b d => b = expected ∧ fine' d) (fun _ => encode') (fun _ => value')
    fun b tail _ _ sound' => ?_).image Prod.snd ?_ ?_
  · have after := rest _ sound' (limit_advance _ _)
    by_cases same : b = expected
    · refine (after.congr (Call.rejectIf_bind_neg (fun differs => differs same) _)).image id ?_ ?_
      · exact fun d isFine' => ⟨⟨same, isFine'⟩, rfl, rfl⟩
      · exact fun d isFine' => ⟨d, isFine'.2, rfl⟩
    · exact .fails (Call.rejectIf_bind_pos same _) isBad fun d isFine' => same isFine'.1
  · rintro ⟨b, d⟩ ⟨-, same, isFine'⟩
    obtain rfl : b = expected := same
    exact ⟨isFine', rfl, rfl⟩
  · exact fun d isFine' => ⟨(expected, d), ⟨isFine, rfl, isFine'⟩, rfl⟩

theorem map (h : Parses self bad call fine encode value) (f : α → γ) :
    Parses self bad (call >>= fun a => Pure.pure (f a)) fine encode fun b => f (value b) := by
  constructor
  · intro b tail isFine front
    rw [Call.bind_ok (h.front b tail isFine front)]
    rfl
  · exact h.cases.imp_right fun ⟨error, after, failed, isBad⟩ => ⟨error, after, Call.bind_err failed, isBad⟩

end Parses

/-! ### Reads -/

section Reads

variable {wrap : Truncated → ε}

theorem parses_bytes (sound : self.Sound) (isBad : bad (wrap self.truncated)) (width : Nat) :
    Parses self bad (Call.mapErr wrap (readBytes width)) (fun bytes : List Byte => bytes.length = width) id id := by
  constructor
  · rintro bytes tail rfl front
    have enough : bytes.length ≤ self.rest.length := by
      rw [front, List.length_append]
      exact Nat.le_add_right _ _
    rw [Call.mapErr_ok (readBytes_ok sound enough), front]
    exact congrArg (fun bytes => Outcome.ok bytes _) List.take_left
  · by_cases enough : width ≤ self.rest.length
    · exact Or.inl ⟨self.rest.take width, self.rest.drop width, List.length_take_of_le enough,
        (List.take_append_drop _ _).symm⟩
    · exact Or.inr ⟨_, _, Call.mapErr_err (readBytes_short sound (by omega)), isBad⟩

theorem parses_number (sound : self.Sound) (isBad : bad (wrap self.truncated)) (width : Nat) :
    Parses self bad (Call.mapErr wrap (readNumber width)) (· < 256 ^ width) (bytesOf width) id := by
  constructor
  · intro number tail fits front
    rw [Call.mapErr_ok (readNumber_of_rest sound fits front), length_bytesOf]
    rfl
  · by_cases enough : width ≤ self.rest.length
    · have length : (self.rest.take width).length = width := List.length_take_of_le enough
      refine Or.inl ⟨ofBytes (self.rest.take width), self.rest.drop width, ?_, ?_⟩
      · have fits := ofBytes_lt (self.rest.take width)
        rwa [length] at fits
      · rw [bytesOf_eq length, List.take_append_drop]
    · exact Or.inr ⟨_, _, Call.mapErr_err (readNumber_short sound (by omega)), isBad⟩

theorem parses_f64 (sound : self.Sound) (isBad : bad (wrap self.truncated)) :
    Parses self bad (Call.mapErr wrap readF64) (fun _ : BitVec 64 => True) (fun bits => bytesOf 8 bits.toNat) id := by
  constructor
  · intro bits tail _ front
    rw [Call.mapErr_ok (readF64_front sound front), length_bytesOf]
    rfl
  · by_cases enough : 8 ≤ self.rest.length
    · obtain ⟨bits, -, front⟩ := readF64_ok sound enough
      exact Or.inl ⟨bits, _, trivial, front⟩
    · refine Or.inr ⟨_, self, Call.mapErr_err ?_, isBad⟩
      unfold readF64
      exact Call.bind_err (readNumber_short sound (by omega))

/-- A number that says what follows. -/
theorem parses_tagged (sound : self.Sound) (isBad : bad (wrap self.truncated)) {width : Nat} {next : Nat → Read ε γ}
    (tag : δ → Nat) (payload : δ → List Byte) (value : δ → γ) (small : ∀ d, tag d < 256 ^ width)
    (rest : ∀ n (after : Decoder), after.Sound → after.limit = self.limit →
      Parses after bad (next n) (fun d => tag d = n) payload value) :
    Parses self bad (Call.mapErr wrap (readNumber width) >>= next) (fun _ => True)
      (fun d => bytesOf width (tag d) ++ payload d) value := by
  refine ((parses_number sound isBad width).bind sound (fun n d => tag d = n) (fun _ => payload) (fun _ => value)
    fun n tail _ _ sound' => rest n _ sound' rfl).image Prod.snd ?_ fun d _ => ⟨(tag d, d), ⟨small d, rfl⟩, rfl⟩
  rintro ⟨n, d⟩ ⟨-, same⟩
  obtain rfl : tag d = n := same
  exact ⟨trivial, rfl, rfl⟩

end Reads

/-! ### The header -/

/-- The header of a buffer with so many commands. -/
def headerBytes (magic : List Byte) (version count : Nat) : List Byte :=
  magic ++ (bytesOf 2 version ++ (bytesOf 2 0 ++ (bytesOf 4 0 ++ bytesOf 4 count)))

theorem readHeader_parses (sound : self.Sound) {magic : List Byte} {version : Nat} (four : magic.length = 4)
    (small : version < 256 ^ 2) {truncated : Truncated → ε} {error : HeaderErrorKind → Nat → ε}
    (cut : ∀ offset ≤ self.limit, bad (truncated ⟨offset⟩)) (refused : ∀ kind, ∀ offset ≤ self.limit, bad (error kind offset)) :
    Parses self bad (readHeader magic version truncated error) (· < 2 ^ 32) (headerBytes magic version) id := by
  have here (decoder : Decoder) (sound : decoder.Sound) (same : decoder.limit = self.limit) (kind : HeaderErrorKind) :
      bad (error kind decoder.offset) := refused kind _ (sound.offset_le.trans (Nat.le_of_eq same))
  have number (decoder : Decoder) (sound : decoder.Sound) (same : decoder.limit = self.limit) (width : Nat) :
      Parses decoder bad (Call.mapErr truncated (readNumber width)) (· < 256 ^ width) (bytesOf width) id :=
    parses_number sound (cut _ (Nat.le_of_eq same)) width
  unfold readHeader
  refine .get_bind ((parses_bytes sound (cut _ (le_refl _)) 4).constant sound four (here self sound rfl _)
    fun after sound same => .get_bind ?_)
  refine (number after sound same 2).constant sound small (here after sound same _)
    fun after sound same' => .get_bind ?_
  have same := same'.trans same
  refine (number after sound same 2).constant sound (by decide) (here after sound same _)
    fun after sound same' => .get_bind ?_
  have same := same'.trans same
  refine (number after sound same 4).constant sound (by decide) (here after sound same _) fun after sound same' => ?_
  exact number after sound (same'.trans same) 4

/-! ### Lists -/

/-- A number that says how many follow, at no less than so many bytes each. -/
theorem Parses.flatMap_length {fine : β → Prop} {encode : β → List Byte} {size : Nat}
    (sizes : ∀ b, fine b → size ≤ (encode b).length) {list : List β} (all : ∀ b ∈ list, fine b) :
    list.length * size ≤ (list.flatMap encode).length := by
  induction list with
  | nil => exact Nat.le_of_eq (Nat.zero_mul _)
  | cons b list ih =>
    have first := sizes b (all b List.mem_cons_self)
    have rest := ih fun other member => all other (List.mem_cons_of_mem _ member)
    rw [List.flatMap_cons, List.length_append, List.length_cons, Nat.add_mul, Nat.one_mul]
    omega

end Decoder

end Hynergy
