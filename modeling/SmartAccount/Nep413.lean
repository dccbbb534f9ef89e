import SmartAccount.Foundation.Borsh

/-!
# The bytes behind a NEP-413 signature

`nep413SigningBytes` of the scripts: a constant tag, the message and the recipient behind their
lengths, the nonce between them, and an optional callback URL behind a tag byte.  These are the
fields of a Borsh record (`signingFields`), so that no two inputs share their bytes.
-/

namespace SmartAccount

open Foundation

/-- The argument of `nep413SigningBytes`. -/
structure SigningInput where
  message : String
  nonce : Bytes
  recipient : String
  callbackUrl : Option String
deriving DecidableEq

/-- `NEP413_PREFIX_TAG`, 2^31 + 413. -/
def nep413PrefixTag : Nat := 2147484061

/-- `u32le`: the low 32 bits. -/
def u32le (n : Nat) : Bytes := Codec.encodeLE 4 n

/-- A length and the UTF-8 bytes behind it. -/
def lengthPrefixed (s : String) : Bytes := u32le (utf8Bytes s).length ++ utf8Bytes s

def nep413SigningBytes (input : SigningInput) : Except String Bytes :=
  if input.nonce.length ≠ 32 then
    .error "nep413SigningBytes: nonce must be a 32-byte Uint8Array"
  else
    .ok (u32le nep413PrefixTag ++ lengthPrefixed input.message ++ input.nonce ++
      lengthPrefixed input.recipient ++
        match input.callbackUrl with
        | none => [0]
        | some url => 1 :: lengthPrefixed url)

/-! ## Reading the bytes back -/

/-- Texts whose length fits its four bytes, and a nonce that is accepted. -/
structure SigningInput.Fits (input : SigningInput) : Prop where
  message : (utf8Bytes input.message).length < 2 ^ 32
  nonce : input.nonce.length = 32
  recipient : (utf8Bytes input.recipient).length < 2 ^ 32
  callbackUrl : ∀ url ∈ input.callbackUrl, (utf8Bytes url).length < 2 ^ 32

/-- The fields behind the tag. -/
abbrev SigningFields : Type :=
  {s : String // (utf8Bytes s).length < 256 ^ 4} × {bytes : Bytes // bytes.length = 32} ×
    {s : String // (utf8Bytes s).length < 256 ^ 4} ×
      Option {s : String // (utf8Bytes s).length < 256 ^ 4}

def signingFields : Codec SigningFields :=
  Codec.text.pair ((Codec.fixed 32).pair (Codec.text.pair Codec.text.option))

def SigningFields.input (fields : SigningFields) : SigningInput where
  message := fields.1.val
  nonce := fields.2.1.val
  recipient := fields.2.2.1.val
  callbackUrl := fields.2.2.2.map Subtype.val

/-- The input that the bytes sign. -/
def readSigningBytes (bytes : Bytes) : Option SigningInput := do
  let (tag, rest) ← Codec.decodeLE 4 bytes
  if tag = nep413PrefixTag then (signingFields.decodeAll rest).map SigningFields.input else none

/-- An input that fits is the reading of its fields. -/
theorem SigningInput.Fits.fields {input : SigningInput} (fits : input.Fits) :
    ∃ fields : SigningFields, fields.input = input := by
  obtain ⟨message, nonce, recipient, callbackUrl⟩ := input
  cases callbackUrl with
  | none => exact ⟨(⟨message, fits.message⟩, ⟨nonce, fits.nonce⟩, ⟨recipient, fits.recipient⟩,
      none), rfl⟩
  | some url => exact ⟨(⟨message, fits.message⟩, ⟨nonce, fits.nonce⟩, ⟨recipient, fits.recipient⟩,
      some ⟨url, fits.callbackUrl url rfl⟩), rfl⟩

/-- The signed bytes are the tag and the written fields. -/
theorem nep413SigningBytes_fields (fields : SigningFields) :
    nep413SigningBytes fields.input =
      .ok (u32le nep413PrefixTag ++ signingFields.encode fields) := by
  obtain ⟨message, nonce, recipient, callbackUrl⟩ := fields
  have accepted : ¬ nonce.val.length ≠ 32 := not_not.mpr nonce.property
  rw [nep413SigningBytes, SigningFields.input, if_neg accepted]
  cases callbackUrl with
  | none =>
      show Except.ok _ = Except.ok (_ ++ (_ ++ (_ ++ (_ ++ _))))
      simp only [List.append_assoc]
      rfl
  | some url =>
      show Except.ok _ = Except.ok (_ ++ (_ ++ (_ ++ (_ ++ _))))
      simp only [List.append_assoc]
      rfl

theorem readSigningBytes_fields (fields : SigningFields) :
    readSigningBytes (u32le nep413PrefixTag ++ signingFields.encode fields) =
      some fields.input := by
  have whole := Codec.decodeAll_eq_some.mpr (rfl : signingFields.encode fields = _)
  rw [readSigningBytes, u32le, Codec.decodeLE_encodeLE (by decide)]
  simp only [Option.bind_eq_bind, Option.bind_some, if_pos, whole, Option.map_some]

/-- Every input that fits has signing bytes, which read back as it and sign no other input. -/
theorem nep413SigningBytes_unambiguous {input : SigningInput} (fits : input.Fits) :
    ∃ bytes, nep413SigningBytes input = .ok bytes ∧ readSigningBytes bytes = some input ∧
      ∀ input' : SigningInput, input'.Fits → nep413SigningBytes input' = .ok bytes →
        input' = input := by
  obtain ⟨fields, rfl⟩ := fits.fields
  refine ⟨_, nep413SigningBytes_fields fields, readSigningBytes_fields fields, ?_⟩
  intro input' fits' same
  obtain ⟨fields', rfl⟩ := fits'.fields
  have bytes := Except.ok.inj ((nep413SigningBytes_fields fields').symm.trans same)
  have read := readSigningBytes_fields fields'
  rw [bytes, readSigningBytes_fields] at read
  exact (Option.some.inj read).symm

/-- A message to `intents.near` with a nonce of zeros and a callback. -/
theorem nep413SigningBytes_unambiguous_intent :
    ∃ bytes, nep413SigningBytes ⟨"\x7b\x7d", List.replicate 32 0, "intents.near",
        some "https://example.test"⟩ = .ok bytes ∧
      readSigningBytes bytes = some ⟨"\x7b\x7d", List.replicate 32 0, "intents.near",
        some "https://example.test"⟩ ∧
      ∀ input' : SigningInput, input'.Fits → nep413SigningBytes input' = .ok bytes →
        input' = ⟨"\x7b\x7d", List.replicate 32 0, "intents.near",
          some "https://example.test"⟩ := by
  refine nep413SigningBytes_unambiguous ⟨by decide, by decide, by decide, fun url given => ?_⟩
  obtain rfl := Option.some.inj given
  decide

end SmartAccount
