import StarkBallot.Domain.SessionCapabilityToken

/-! Payloads of capability tokens. A text is read back from its payload, and plain claims from their
    JSON, so claims survive the encodings; a token splits into the three parts that it was made of.

        claims ──▶ payload ──▶ claims        "v1." payload "." signature  ──split──▶  v1, payload, signature -/

namespace StarkBallot.Domain
open Schemes ZkvmContract.HostIo

/-! ### Characters and units -/

section Units

variable {s : JsString} {c : Char}

theorem unitsOfChar_ascii (h : c.toNat < 128) : unitsOfChar c = [UInt16.ofNat c.toNat] :=
  if_pos (by omega)

theorem toNat_unitOf (h : c.toNat < 128) : (UInt16.ofNat c.toNat).toNat = c.toNat := by
  rw [UInt16.toNat_ofNat', Nat.mod_eq_of_lt (by omega)]

theorem single_of_lt {unit : UInt16} (h : unit.toNat < 0xD800) :
    (isHighSurrogate unit || isLowSurrogate unit) = false := by
  have hlow : (0xD800 : UInt16).toNat = 0xD800 := rfl
  have hmid : (0xDC00 : UInt16).toNat = 0xDC00 := rfl
  simp only [isHighSurrogate, isLowSurrogate, Bool.or_eq_false_iff, Bool.and_eq_false_iff,
    decide_eq_false_iff_not, UInt16.le_iff_toNat_le]
  omega

theorem unitChar_ascii (h : c.toNat < 128) : unitChar (UInt16.ofNat c.toNat) = c := by
  have hnat := toNat_unitOf h
  refine Char.toNat_inj.mp ?_
  rw [unitChar_of_single (single_of_lt (by omega)), hnat]

theorem map_unitChar_units (h : ∀ c ∈ s, c.toNat < 128) : (units s).map unitChar = s := by
  induction s with
  | nil => rfl
  | cons c s ih =>
    have hc := h c List.mem_cons_self
    rw [units, List.flatMap_cons, unitsOfChar_ascii hc, List.singleton_append, List.map_cons,
      unitChar_ascii hc, ← units, ih fun d hd => h d (List.mem_cons_of_mem c hd)]

/-- A unit that is shown as an ASCII character is the unit of that character. -/
theorem units_map_unitChar {value : Units} (h : ∀ unit ∈ value, (unitChar unit).toNat < 128) :
    units (value.map unitChar) = value := by
  induction value with
  | nil => rfl
  | cons unit value ih =>
    have hunit := h unit List.mem_cons_self
    have hsingle : (isHighSurrogate unit || isLowSurrogate unit) = false := by
      by_contra hpart
      rw [Bool.not_eq_false] at hpart
      rw [unitChar, if_pos hpart] at hunit
      exact absurd hunit (by decide)
    rw [List.map_cons, units, List.flatMap_cons, unitsOfChar_unitChar hsingle,
      List.singleton_append, ← units, ih fun u hu => h u (List.mem_cons_of_mem unit hu)]

theorem textOfUnits_units (h : ∀ c ∈ s, c.toNat < 128) : textOfUnits (units s) = s := by
  induction s with
  | nil => rfl
  | cons c s ih =>
    have hc := h c List.mem_cons_self
    have hnat := toNat_unitOf hc
    have htail := ih fun d hd => h d (List.mem_cons_of_mem c hd)
    have hhigh : isHighSurrogate (UInt16.ofNat c.toNat) = false :=
      (Bool.or_eq_false_iff.mp (single_of_lt (by omega))).1
    rw [units, List.flatMap_cons, unitsOfChar_ascii hc, List.singleton_append, ← units]
    cases hunits : units s with
    | nil =>
      rw [hunits] at htail
      rw [textOfUnits, unitChar_ascii hc, ← htail, textOfUnits]
    | cons next rest =>
      rw [hunits] at htail
      rw [textOfUnits, if_neg (by rw [isPair, hhigh]; exact Bool.false_ne_true),
        unitChar_ascii hc, htail]

@[simp] theorem units_append (s s' : JsString) : units (s ++ s') = units s ++ units s' :=
  List.flatMap_append

theorem mem_units {unit : UInt16} (h : ∀ c ∈ s, c.toNat < 128) (hunit : unit ∈ units s) :
    ∃ c ∈ s, unit = UInt16.ofNat c.toNat := by
  obtain ⟨c, hc, hunit⟩ := List.mem_flatMap.mp hunit
  rw [unitsOfChar_ascii (h c hc), List.mem_singleton] at hunit
  exact ⟨c, hc, hunit⟩

/-- Visible ASCII characters. -/
def IsPlainText (s : JsString) : Prop := ∀ c ∈ s, 32 < c.toNat ∧ c.toNat < 127

theorem isPlainText_of_all (h : s.all (fun c => decide (32 < c.toNat ∧ c.toNat < 127)) = true) :
    IsPlainText s :=
  fun c hc => of_decide_eq_true (List.all_eq_true.mp h c hc)

theorem IsPlainText.ascii (h : IsPlainText s) : ∀ c ∈ s, c.toNat < 128 :=
  fun c hc => (h c hc).2.trans (by decide)

theorem isBlank_of_visible (h : 32 < c.toNat ∧ c.toNat < 127) : isBlank c = false := by
  simp only [isBlank, List.mem_cons, List.not_mem_nil, or_false, Bool.or_eq_false_iff,
    decide_eq_false_iff_not, Bool.and_eq_false_iff]
  omega

theorem trimUnits_units (h : IsPlainText s) : trimUnits (units s) = units s := by
  have hblank : ∀ unit ∈ units s, ¬ isBlankUnit unit = true := by
    intro unit hunit
    obtain ⟨c, hc, rfl⟩ := mem_units h.ascii hunit
    rw [isBlankUnit, unitChar_ascii (h.ascii c hc), isBlank_of_visible (h c hc)]
    exact Bool.false_ne_true
  have hfront : (units s).dropWhile isBlankUnit = units s := by
    cases hunits : units s with
    | nil => rfl
    | cons unit rest =>
        rw [List.dropWhile_cons, if_neg (hblank unit (by rw [hunits]; exact List.mem_cons_self))]
  rw [trimUnits, hfront, List.rdropWhile_eq_self_iff]
  exact fun hne => hblank _ (List.getLast_mem hne)

end Units

/-! ### Base 64 -/

section Base64Url

theorem standardDigit_url {n : ℕ} (h : n < 64) :
    (if Base64.Alphabet.standard.digit n = '+' then '-'
      else if Base64.Alphabet.standard.digit n = '/' then '_' else Base64.Alphabet.standard.digit n) =
        Base64.Alphabet.url.digit n :=
  (by decide : ∀ n < 64, (if Base64.Alphabet.standard.digit n = '+' then '-'
    else if Base64.Alphabet.standard.digit n = '/' then '_' else Base64.Alphabet.standard.digit n) =
      Base64.Alphabet.url.digit n) n h

theorem urlDigit_standard {n : ℕ} (h : n < 64) :
    (if Base64.Alphabet.url.digit n = '-' then '+'
      else if Base64.Alphabet.url.digit n = '_' then '/' else Base64.Alphabet.url.digit n) =
        Base64.Alphabet.standard.digit n :=
  (by decide : ∀ n < 64, (if Base64.Alphabet.url.digit n = '-' then '+'
    else if Base64.Alphabet.url.digit n = '_' then '/' else Base64.Alphabet.url.digit n) =
      Base64.Alphabet.standard.digit n) n h

theorem rdropWhile_append_replicate {text : JsString} {c : Char} (h : ∀ d ∈ text, d ≠ c) (count : ℕ) :
    (text ++ List.replicate count c).rdropWhile (· = c) = text := by
  induction count with
  | zero =>
    rw [List.replicate_zero, List.append_nil, List.rdropWhile_eq_self_iff]
    intro hne heq
    exact h _ (List.getLast_mem hne) (of_decide_eq_true heq)
  | succ count ih =>
    rw [List.replicate_succ', ← List.append_assoc,
      List.rdropWhile_concat_pos (fun d => decide (d = c)) _ c (decide_eq_true rfl), ih]

theorem encodeBase64Url_eq (value : JsString) :
    encodeBase64Url value = Base64.unpadded .url (utf8 value) := by
  have hdigits : (Base64.unpadded .standard (utf8 value)).map
      (fun c => if c = '+' then '-' else if c = '/' then '_' else c) = Base64.unpadded .url
        (utf8 value) := by
    rw [Base64.unpadded, List.map_map, Base64.unpadded]
    refine List.map_congr_left fun n hn => ?_
    exact standardDigit_url (Base64.sextets_lt _ n hn)
  rw [encodeBase64Url, Base64.padded, List.map_append, hdigits, Base64.padding, List.map_replicate]
  exact rdropWhile_append_replicate (Base64.ne_padding_of_mem_unpadded .url _) _

theorem urlDigit_cases {c : Char} {bytes : List UInt8} (h : c ∈ Base64.unpadded .url bytes) :
    isUrlDigit c = true ∧ (32 < c.toNat ∧ c.toNat < 127) ∧ c ≠ '.' := by
  obtain ⟨n, hn, rfl⟩ := List.mem_map.mp h
  exact (by decide : ∀ n < 64, isUrlDigit (Base64.Alphabet.url.digit n) = true ∧
    (32 < (Base64.Alphabet.url.digit n).toNat ∧ (Base64.Alphabet.url.digit n).toNat < 127) ∧
      Base64.Alphabet.url.digit n ≠ '.') n (Base64.sextets_lt bytes n hn)

theorem isPlainText_unpadded (bytes : List UInt8) : IsPlainText (Base64.unpadded .url bytes) :=
  fun _ hc => (urlDigit_cases hc).2.1

theorem unpadded_ne_nil {bytes : List UInt8} (h : bytes ≠ []) : Base64.unpadded .url bytes ≠ [] := by
  intro hnil
  rw [Base64.unpadded, List.map_eq_nil_iff] at hnil
  have hread := Base64.octets_sextets bytes
  rw [hnil] at hread
  exact h hread.symm

theorem utf8_ne_nil {value : JsString} (h : value ≠ []) : utf8 value ≠ [] := by
  intro hnil
  exact h (utf8_injective (hnil.trans utf8_nil.symm))

/-- READ BACK: a text that is not empty is read back from its encoding. -/
theorem decodeBase64Url_encode {value : JsString} (h : value ≠ []) :
    decodeBase64Url (units (encodeBase64Url value)) = some value := by
  have hne := unpadded_ne_nil (utf8_ne_nil h)
  have hall : (Base64.unpadded .url (utf8 value)).all isUrlDigit = true :=
    List.all_eq_true.mpr fun c hc => (urlDigit_cases hc).1
  have hnormalized : (Base64.unpadded .url (utf8 value)).map
      (fun c => if c = '-' then '+' else if c = '_' then '/' else c) = Base64.unpadded .standard
        (utf8 value) := by
    rw [Base64.unpadded, List.map_map, Base64.unpadded]
    refine List.map_congr_left fun n hn => ?_
    exact urlDigit_standard (Base64.sextets_lt _ n hn)
  simp only [decodeBase64Url, encodeBase64Url_eq,
    map_unitChar_units (isPlainText_unpadded _).ascii, hne, hall, hnormalized, not_true_eq_false,
    or_self, if_false]
  have hpadding (text : JsString) :
      (if text.length % 4 = 0 then [] else List.replicate (4 - text.length % 4) '=') =
      List.replicate (if text.length % 4 = 0 then 0 else 4 - text.length % 4) '=' := by
    split_ifs <;> rfl
  rw [hpadding, Base64.decode_unpadded, utf8Text_utf8]

end Base64Url

/-! ### Claims -/

section Claims

variable {claims : SessionCapabilityClaims} {iat exp : ℕ}

theorem claimsOfJson_toJson (hsid : claims.sid ≠ []) (hnonce : claims.nonce ≠ [])
    (hiat : isPositiveClaimTimestamp claims.iat = true)
    (hexp : isPositiveClaimTimestamp claims.exp = true) :
    claimsOfJson claims.toJson = some claims := by
  have hsidRead : claims.toJson.property (units (js "sid")) = some (.string claims.sid) := rfl
  have hiatRead : claims.toJson.property (units (js "iat")) = some (.number claims.iat) := rfl
  have hexpRead : claims.toJson.property (units (js "exp")) = some (.number claims.exp) := rfl
  have hnonceRead : claims.toJson.property (units (js "nonce")) = some (.string claims.nonce) := rfl
  simp only [claimsOfJson, hsidRead, hiatRead, hexpRead, hnonceRead]
  exact if_pos ⟨hsid, hnonce, hiat, hexp⟩

theorem isPlain_toJson (hiat : claims.iat = .ofNat iat) (hexp : claims.exp = .ofNat exp)
    (hsafeIat : iat ≤ Num.maxSafeInteger) (hsafeExp : exp ≤ Num.maxSafeInteger) :
    claims.toJson.IsPlain :=
  ⟨trivial, ⟨iat, hsafeIat, hiat⟩, ⟨exp, hsafeExp, hexp⟩, trivial, trivial⟩

theorem isPositiveClaimTimestamp_ofNat (h : 0 < iat) : isPositiveClaimTimestamp (.ofNat iat) = true := by
  simp [isPositiveClaimTimestamp, h]

/-- READ BACK: claims whose times are positive safe integers are read from their payload. -/
theorem parseCapabilityClaims_payload (hsid : claims.sid ≠ []) (hnonce : claims.nonce ≠ [])
    (hiat : claims.iat = .ofNat iat) (hexp : claims.exp = .ofNat exp) (hpos : 0 < iat) (hlt : iat < exp)
    (hsafe : exp ≤ Num.maxSafeInteger) :
    parseCapabilityClaims (units (encodeBase64Url claims.toJson.stringify)) = some claims := by
  have hplain := isPlain_toJson hiat hexp (hlt.le.trans hsafe) hsafe
  have hne : claims.toJson.stringify ≠ [] := List.cons_ne_nil _ _
  rw [parseCapabilityClaims, decodeBase64Url_encode hne]
  simp only [Option.bind_eq_bind, Option.bind_some, if_neg hne, parse_stringify hplain]
  exact claimsOfJson_toJson hsid hnonce (by rw [hiat]; exact isPositiveClaimTimestamp_ofNat hpos)
    (by rw [hexp]; exact isPositiveClaimTimestamp_ofNat (hpos.trans hlt))

end Claims

end StarkBallot.Domain
