import LightningGateway.InvoiceTerms

/-!
# Hex identifiers and external ids

The code compares hashes as text and checks client identifiers byte by byte,
while both are specified on characters. A text made of bytes below 128 has one
byte for each character, so the byte checks decide the character specifications
exactly. The three hex types then share one statement, `Canonical`: every value
prints to a text that parses back, the texts accepted are the hexadecimal ones of
the right length, and printing again lowers the case.
-/
namespace LightningGateway.HexIdentifiers

open Primitives PaymentFlows InvoiceFlows InvoiceTerms

/-! ### Characters of one byte -/

section
variable {c : Char} {s : String} {P : UInt8 → Prop}

/-- The byte that stands for an ASCII character. -/
def code (c : Char) : UInt8 := UInt8.ofNat c.toNat

theorem code_toNat (h : c.toNat < 128) : (code c).toNat = c.toNat :=
  Nat.mod_eq_of_lt (by omega)

theorem ofNat_code (h : c.toNat < 128) : Char.ofNat (code c).toNat = c := by
  rw [code_toNat h]
  exact Char.ofNat_toNat c

theorem utf8EncodeChar_ascii (h : c.toNat < 128) : String.utf8EncodeChar c = [code c] :=
  if_pos (show c.toNat ≤ 0x7f by omega)

/-- Beyond ASCII every byte of an encoding has its high bit set. -/
theorem utf8EncodeChar_high (h : 128 ≤ c.toNat) :
    ∀ b ∈ String.utf8EncodeChar c, 128 ≤ b.toNat := by
  have hv : ¬ c.val.toNat ≤ 0x7f := by
    have : c.val.toNat = c.toNat := rfl
    omega
  intro b hb
  simp only [String.utf8EncodeChar, hv, if_false] at hb
  split_ifs at hb <;> simp only [List.mem_cons, List.not_mem_nil, or_false] at hb
  all_goals
    rcases hb with rfl | rfl | rfl | rfl <;>
      simp only [UInt8.toNat_ofNat'] <;> omega

theorem utf8EncodeChar_ne_nil : String.utf8EncodeChar c ≠ [] := by
  rw [← List.length_pos_iff, String.length_utf8EncodeChar]
  exact Char.utf8Size_pos c

theorem utf8Bytes_eq_flatMap : utf8Bytes s = s.toList.flatMap String.utf8EncodeChar := by
  unfold utf8Bytes
  conv_lhs => rw [← String.ofList_toList (s := s)]
  rw [String.toByteArray_ofList, List.utf8Encode, List.data_toByteArray]

theorem utf8Bytes_ascii (h : ∀ c ∈ s.toList, c.toNat < 128) :
    utf8Bytes s = s.toList.map code := by
  rw [utf8Bytes_eq_flatMap, List.flatMap_congr fun c hc => utf8EncodeChar_ascii (h c hc)]
  exact List.map_eq_flatMap.symm

/-- A check of every byte that no high byte passes is the same check of every character. -/
theorem all_bytes_iff (hP : ∀ b, P b → b.toNat < 128) :
    (∀ b ∈ utf8Bytes s, P b) ↔ ∀ c ∈ s.toList, c.toNat < 128 ∧ P (code c) := by
  constructor
  · intro h c hc
    have hsub : ∀ b ∈ String.utf8EncodeChar c, P b := fun b hb =>
      h b (by rw [utf8Bytes_eq_flatMap]; exact List.mem_flatMap.mpr ⟨c, hc, hb⟩)
    have hlow : c.toNat < 128 := by
      by_contra hhigh
      obtain ⟨b, hb⟩ := List.exists_mem_of_ne_nil _ (utf8EncodeChar_ne_nil (c := c))
      have := utf8EncodeChar_high (by omega) b hb
      have := hP b (hsub b hb)
      omega
    refine ⟨hlow, hsub _ ?_⟩
    rw [utf8EncodeChar_ascii hlow]
    exact List.mem_singleton.mpr rfl
  · intro h b hb
    rw [utf8Bytes_ascii fun c hc => (h c hc).1] at hb
    obtain ⟨c, hc, rfl⟩ := List.mem_map.mp hb
    exact (h c hc).2

theorem length_of_ascii (h : ∀ c ∈ s.toList, c.toNat < 128) :
    (utf8Bytes s).length = s.length := by
  rw [utf8Bytes_ascii h, List.length_map, String.length_toList]

end

/-! ### Decoding digit by digit -/

/-- A hexadecimal digit, either case. -/
def HexDigit (c : Char) : Prop :=
  ('0' ≤ c ∧ c ≤ '9') ∨ ('a' ≤ c ∧ c ≤ 'f') ∨ ('A' ≤ c ∧ c ≤ 'F')

/-- The bytes `hex::decode` takes for digits. -/
def HexCode (b : UInt8) : Prop :=
  (65 ≤ b.toNat ∧ b.toNat ≤ 70) ∨ (97 ≤ b.toNat ∧ b.toNat ≤ 102) ∨
    (48 ≤ b.toNat ∧ b.toNat ≤ 57)

/-- The digit of a byte, in lower case. -/
def lowerDigit (b : UInt8) : Char := (Char.ofNat b.toNat).toLower

theorem HexCode.ascii {b : UInt8} (h : HexCode b) : b.toNat < 128 := by
  unfold HexCode at h
  omega

theorem le_iff_toNat (c d : Char) : c ≤ d ↔ c.toNat ≤ d.toNat := Iff.rfl

theorem hexDigit_iff {c : Char} : HexDigit c ↔ c.toNat < 128 ∧ HexCode (code c) := by
  have h0 : '0'.toNat = 48 := rfl
  have h9 : '9'.toNat = 57 := rfl
  have ha : 'a'.toNat = 97 := rfl
  have hf : 'f'.toNat = 102 := rfl
  have hA : 'A'.toNat = 65 := rfl
  have hF : 'F'.toNat = 70 := rfl
  simp only [HexDigit, le_iff_toNat, h0, h9, ha, hf, hA, hF]
  constructor
  · intro h
    have hlow : c.toNat < 128 := by omega
    refine ⟨hlow, ?_⟩
    rw [HexCode, code_toNat hlow]
    omega
  · rintro ⟨hlow, h⟩
    rw [HexCode, code_toNat hlow] at h
    omega

theorem hexValue_total {b : UInt8} (h : HexCode b) (i : ℕ) : ∃ v, hexValue b i = .ok v := by
  unfold hexValue
  split_ifs with h₁ h₂ h₃
  · exact ⟨_, rfl⟩
  · exact ⟨_, rfl⟩
  · exact ⟨_, rfl⟩
  · exact absurd h (by rintro (h | h | h) <;> contradiction)

theorem hexValue_ok {b : UInt8} {i v : ℕ} (h : hexValue b i = .ok v) :
    HexCode b ∧ v < 16 ∧ hexDigit v = lowerDigit b := by
  unfold hexValue at h
  unfold HexCode lowerDigit
  split_ifs at h with h₁ h₂ h₃
  · cases h
    refine ⟨.inl h₁, by omega, ?_⟩
    obtain ⟨hlo, hhi⟩ := h₁
    interval_cases b.toNat <;> rfl
  · cases h
    refine ⟨.inr (.inl h₂), by omega, ?_⟩
    obtain ⟨hlo, hhi⟩ := h₂
    interval_cases b.toNat <;> rfl
  · cases h
    refine ⟨.inr (.inr h₃), by omega, ?_⟩
    obtain ⟨hlo, hhi⟩ := h₃
    interval_cases b.toNat <;> rfl

theorem hexPairs_total {bs : List UInt8} (h : ∀ b ∈ bs, HexCode b) (i : ℕ) :
    ∃ out, hexPairs bs i = .ok out := by
  induction bs, i using hexPairs.induct with
  | case1 hi lo rest i ih =>
      obtain ⟨u, hu⟩ := hexValue_total (h hi (by simp)) i
      obtain ⟨v, hv⟩ := hexValue_total (h lo (by simp)) (i + 1)
      obtain ⟨out, hout⟩ := ih fun b hb => h b (by simp [hb])
      refine ⟨UInt8.ofNat (u * 16 + v) :: out, ?_⟩
      rw [hexPairs, hu, hv, hout]
      rfl
  | case2 bs i hshort => exact ⟨[], by rw [hexPairs]; exact hshort⟩

/-- What a decoded text was: two digits for each byte, and the bytes print as these digits in
lower case. -/
theorem hexPairs_ok {bs out : List UInt8} {i : ℕ} (h : hexPairs bs i = .ok out)
    (heven : bs.length % 2 = 0) :
    bs.length = 2 * out.length ∧ (∀ b ∈ bs, HexCode b) ∧
      out.flatMap hexByte = bs.map lowerDigit := by
  induction bs, i using hexPairs.induct generalizing out with
  | case1 hi lo rest i ih =>
      rw [hexPairs] at h
      cases hu : hexValue hi i with
      | error e => rw [hu] at h; cases h
      | ok u =>
          cases hv : hexValue lo (i + 1) with
          | error e => rw [hu, hv] at h; cases h
          | ok v =>
              cases hrest : hexPairs rest (i + 2) with
              | error e => rw [hu, hv, hrest] at h; cases h
              | ok tail =>
                  rw [hu, hv, hrest] at h
                  cases h
                  obtain ⟨hlen, hall, hprint⟩ := ih hrest (by
                    simp only [List.length_cons] at heven
                    omega)
                  obtain ⟨hhi, hu16, hudigit⟩ := hexValue_ok hu
                  obtain ⟨hlo, hv16, hvdigit⟩ := hexValue_ok hv
                  have hbyte : (UInt8.ofNat (u * 16 + v)).toNat = u * 16 + v :=
                    Nat.mod_eq_of_lt (by omega)
                  refine ⟨by simp only [List.length_cons, hlen]; omega, ?_, ?_⟩
                  · intro b hb
                    rcases List.mem_cons.mp hb with rfl | hb
                    · exact hhi
                    · rcases List.mem_cons.mp hb with rfl | hb
                      · exact hlo
                      · exact hall b hb
                  · rw [List.flatMap_cons, hprint, hexByte, hbyte,
                      show (u * 16 + v) / 16 = u by omega, show (u * 16 + v) % 16 = v by omega,
                      hudigit, hvdigit]
                    rfl
  | case2 bs i hshort =>
      rcases bs with _ | ⟨b, _ | ⟨c, rest⟩⟩
      · rw [hexPairs] at h
        · cases h
          exact ⟨rfl, List.forall_mem_nil _, rfl⟩
        · exact hshort
      · exact absurd heven (by simp)
      · exact absurd rfl (hshort b c rest)

/-! ### The three hex types -/

/-- A text of `n` hexadecimal digits, counted in characters. -/
def HexText (n : ℕ) (s : String) : Prop := s.length = n ∧ ∀ c ∈ s.toList, HexDigit c

section
variable {s : String} {out : List UInt8} {n : ℕ}

theorem hexDecode_of_hexText (h : HexText (2 * n) s) : ∃ out, hexDecode s = .ok out := by
  have hall : ∀ b ∈ utf8Bytes s, HexCode b :=
    (all_bytes_iff fun _ => HexCode.ascii).mpr fun c hc => hexDigit_iff.mp (h.2 c hc)
  have hlen : (utf8Bytes s).length = s.length :=
    length_of_ascii fun c hc => (hexDigit_iff.mp (h.2 c hc)).1
  unfold hexDecode
  rw [if_neg (by rw [hlen, h.1]; omega)]
  exact hexPairs_total hall 0

theorem hexDecode_ok (h : hexDecode s = .ok out) :
    HexText (2 * out.length) s ∧ hexEncode out = s.toLower := by
  unfold hexDecode at h
  split_ifs at h with hodd
  obtain ⟨hlen, hall, hprint⟩ := hexPairs_ok h (not_not.mp hodd)
  have hdigits := (all_bytes_iff fun _ => HexCode.ascii).mp hall
  have hascii : ∀ c ∈ s.toList, c.toNat < 128 := fun c hc => (hdigits c hc).1
  refine ⟨⟨(length_of_ascii hascii).symm.trans hlen, fun c hc => hexDigit_iff.mpr (hdigits c hc)⟩,
    ?_⟩
  have hlower : out.flatMap hexByte = s.toList.map Char.toLower := by
    rw [hprint, utf8Bytes_ascii hascii, List.map_map]
    exact List.map_congr_left fun c hc => congrArg Char.toLower (ofNat_code (hascii c hc))
  rw [hexEncode, hlower, ← String.toList_inj, String.toList_ofList]
  exact String.toList_map.symm

end

/-- Printing and parsing of a type of `size` bytes agree on one text for each value. -/
structure Canonical {T : Type} (size : ℕ) (toHex : T → String)
    (fromStr : String → Except ParseError T) : Prop where
  recovers : ∀ x, fromStr (toHex x) = .ok x
  accepts_iff : ∀ s, (∃ x, fromStr s = .ok x) ↔ HexText (2 * size) s
  lowers : ∀ s x, fromStr s = .ok x → toHex x = s.toLower
  prints : ∀ x, HexText (2 * size) (toHex x)
  eq_iff : ∀ x y, toHex x = toHex y ↔ x = y

theorem parseBytes_ok_iff (subject : String) (n : ℕ) (s : String) :
    (∃ x, parseBytes subject n s = .ok x) ↔ HexText (2 * n) s := by
  constructor
  · rintro ⟨x, hx⟩
    unfold parseBytes at hx
    cases hdec : hexDecode s with
    | error e => rw [hdec] at hx; cases hx
    | ok out =>
        rw [hdec] at hx
        dsimp only at hx
        split_ifs at hx with hlen
        exact hlen ▸ (hexDecode_ok hdec).1
  · intro h
    obtain ⟨out, hdec⟩ := hexDecode_of_hexText h
    have hlen : out.length = n := by
      have := (hexDecode_ok hdec).1.1
      have := h.1
      omega
    unfold parseBytes
    rw [hdec]
    exact ⟨⟨out, hlen⟩, dif_pos hlen⟩

theorem parseBytes_lowers {subject s : String} {n : ℕ}
    {x : { bytes : List UInt8 // bytes.length = n }} (h : parseBytes subject n s = .ok x) :
    hexEncode x.1 = s.toLower := by
  unfold parseBytes at h
  cases hdec : hexDecode s with
  | error e => rw [hdec] at h; cases h
  | ok out =>
      rw [hdec] at h
      dsimp only at h
      split_ifs at h
      cases h
      exact (hexDecode_ok hdec).2

/-- The law of every hex type: it wraps an array of `n` bytes, and both its functions go through
the array. -/
theorem canonical {T : Type} (subject : String) (n : ℕ)
    (wrap : { bytes : List UInt8 // bytes.length = n } ≃ T) :
    Canonical n (fun x => hexEncode (wrap.symm x).1)
      (fun s => (parseBytes subject n s).map wrap) := by
  have hrecovers (x : T) :
      (parseBytes subject n (hexEncode (wrap.symm x).1)).map wrap = .ok x := by
    rw [parseBytes_hexEncode subject (wrap.symm x).2]
    exact congrArg Except.ok (wrap.apply_symm_apply x)
  have haccepts (s : String) :
      (∃ x, (parseBytes subject n s).map wrap = .ok x) ↔ HexText (2 * n) s := by
    rw [← parseBytes_ok_iff subject n s]
    constructor
    · rintro ⟨x, hx⟩
      cases hp : parseBytes subject n s with
      | error e => rw [hp] at hx; cases hx
      | ok y => exact ⟨y, rfl⟩
    · rintro ⟨y, hy⟩
      exact ⟨wrap y, by rw [hy]; rfl⟩
  refine ⟨hrecovers, haccepts, ?_, fun x => (haccepts _).mp ⟨x, hrecovers x⟩, fun x y => ?_⟩
  · intro s x hx
    cases hp : parseBytes subject n s with
    | error e => rw [hp] at hx; cases hx
    | ok y =>
        rw [hp] at hx
        cases hx
        rw [wrap.symm_apply_apply]
        exact parseBytes_lowers hp
  · constructor
    · intro h
      exact wrap.symm.injective (Subtype.ext (hexEncode_injective h))
    · rintro rfl
      rfl

/-- Each type is an array of bytes under a name of its own. -/
def paymentHashBytes : { bytes : List UInt8 // bytes.length = 32 } ≃ PaymentHash :=
  ⟨fun ⟨bytes, size⟩ => ⟨bytes, size⟩, fun h => ⟨h.bytes, h.size⟩, fun _ => rfl, fun _ => rfl⟩

theorem paymentHash_canonical : Canonical 32 PaymentHash.toHex PaymentHash.fromStr :=
  canonical "payment hash" 32 paymentHashBytes

def preimageBytes : { bytes : List UInt8 // bytes.length = 32 } ≃ Preimage :=
  ⟨fun ⟨bytes, size⟩ => ⟨bytes, size⟩, fun p => ⟨p.bytes, p.size⟩, fun _ => rfl, fun _ => rfl⟩

theorem preimage_canonical : Canonical 32 Preimage.toHex Preimage.fromStr :=
  canonical "preimage" 32 preimageBytes

def pubkeyBytes : { bytes : List UInt8 // bytes.length = 33 } ≃ Pubkey :=
  ⟨fun ⟨bytes, size⟩ => ⟨bytes, size⟩, fun k => ⟨k.bytes, k.size⟩, fun _ => rfl, fun _ => rfl⟩

theorem pubkey_canonical : Canonical 33 Pubkey.toHex Pubkey.fromStr :=
  canonical "pubkey" 33 pubkeyBytes

/-! ### External ids -/

/-- `[a-z0-9_-]` -/
def IdChar (c : Char) : Prop :=
  ('a' ≤ c ∧ c ≤ 'z') ∨ ('0' ≤ c ∧ c ≤ '9') ∨ c = '-' ∨ c = '_'

/-- `^[a-z0-9_-]{1,100}$` -/
def MatchesIdRegex (s : String) : Prop :=
  1 ≤ s.length ∧ s.length ≤ 100 ∧ ∀ c ∈ s.toList, IdChar c

/-- The class of the regex as `is_valid_external_id` tests it on one byte. -/
def IdCode (b : UInt8) : Prop :=
  (97 ≤ b ∧ b ≤ 122) ∨ (48 ≤ b ∧ b ≤ 57) ∨ b = 45 ∨ b = 95

theorem idCode_iff {b : UInt8} : IdCode b ↔
    (97 ≤ b.toNat ∧ b.toNat ≤ 122) ∨ (48 ≤ b.toNat ∧ b.toNat ≤ 57) ∨ b.toNat = 45 ∨
      b.toNat = 95 := by
  simp only [IdCode, UInt8.le_iff_toNat_le, ← UInt8.toNat_inj]
  rfl

theorem IdCode.ascii {b : UInt8} (h : IdCode b) : b.toNat < 128 := by
  rw [idCode_iff] at h
  omega

theorem idChar_iff {c : Char} : IdChar c ↔ c.toNat < 128 ∧ IdCode (code c) := by
  have ha : 'a'.toNat = 97 := rfl
  have hz : 'z'.toNat = 122 := rfl
  have h0 : '0'.toNat = 48 := rfl
  have h9 : '9'.toNat = 57 := rfl
  have hdash : '-'.toNat = 45 := rfl
  have hunder : '_'.toNat = 95 := rfl
  simp only [IdChar, le_iff_toNat, ← Char.toNat_inj, ha, hz, h0, h9, hdash, hunder, idCode_iff]
  constructor
  · intro h
    have hlow : c.toNat < 128 := by omega
    rw [code_toNat hlow]
    exact ⟨hlow, h⟩
  · rintro ⟨hlow, h⟩
    rwa [code_toNat hlow] at h

theorem isValidExternalId_bytes (s : String) : isValidExternalId s = true ↔
    1 ≤ (utf8Bytes s).length ∧ (utf8Bytes s).length ≤ 100 ∧ ∀ b ∈ utf8Bytes s, IdCode b := by
  simp [isValidExternalId, IdCode]

theorem isValidExternalId_iff (s : String) : isValidExternalId s = true ↔ MatchesIdRegex s := by
  have hchars : (∀ b ∈ utf8Bytes s, IdCode b) ↔ ∀ c ∈ s.toList, IdChar c :=
    (all_bytes_iff fun _ => IdCode.ascii).trans
      (forall₂_congr fun _ _ => idChar_iff.symm)
  rw [isValidExternalId_bytes, hchars]
  constructor
  all_goals
    rintro ⟨hpos, hmax, hall⟩
    have hlen := length_of_ascii fun c hc => (idChar_iff.mp (hall c hc)).1
    exact ⟨by omega, by omega, hall⟩

theorem resolve_supplied (s : String) (h : PaymentHash) :
    (resolveExternalId (some s) h = .ok s ↔ MatchesIdRegex s) ∧
      (resolveExternalId (some s) h = .error (.invalidExternalId s) ↔ ¬ MatchesIdRegex s) := by
  have hunfold : resolveExternalId (some s) h =
      if isValidExternalId s then .ok s else .error (.invalidExternalId s) := rfl
  rw [hunfold, ← isValidExternalId_iff]
  by_cases hv : isValidExternalId s = true <;> simp [hv]

theorem resolve_default (h : PaymentHash) : resolveExternalId none h = .ok h.toHex :=
  if_pos (isValidExternalId_toHex h)

/-- Hex identifiers are canonical, and any of them can stand as an external id. -/
theorem hex_identifiers_canonical :
    Canonical 32 PaymentHash.toHex PaymentHash.fromStr ∧
      Canonical 32 Preimage.toHex Preimage.fromStr ∧
      Canonical 33 Pubkey.toHex Pubkey.fromStr ∧
      (∀ s, isValidExternalId s = true ↔ MatchesIdRegex s) ∧
      (∀ s h, (resolveExternalId (some s) h = .ok s ↔ MatchesIdRegex s) ∧
        (resolveExternalId (some s) h = .error (.invalidExternalId s) ↔ ¬ MatchesIdRegex s)) ∧
      (∀ h, resolveExternalId none h = .ok h.toHex) ∧
      Function.Injective fun h => resolveExternalId none h := by
  refine ⟨paymentHash_canonical, preimage_canonical, pubkey_canonical, isValidExternalId_iff,
    resolve_supplied, resolve_default, fun a b hab => ?_⟩
  have htext : a.toHex = b.toHex := by
    have := (resolve_default a).symm.trans (hab.trans (resolve_default b))
    exact Except.ok.inj this
  exact PaymentHash.toHex_injective htext

end LightningGateway.HexIdentifiers
