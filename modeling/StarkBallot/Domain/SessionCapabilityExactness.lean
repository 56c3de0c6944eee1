import StarkBallot.Domain.SessionCapabilityEncoding
import StarkBallot.Runtime.Sha256

/-! What a capability token is accepted for. A token that was created is accepted for its session until
    it expires and for nothing else; a token that is accepted was signed, and its
    claims are those of the session:

        created at t for ttl seconds  ──▶  accepted for the session before t + ttl
        accepted                      ──▶  "v1." p "." HMAC("v1." p), p the claims of the session, not expired

    Times are numbers that round. From 2⁵³ seconds on a sum is not exact any more, and a time that is
    NaN is before no expiry and after none: the code accepts at such a time whatever the expiry is. -/

namespace StarkBallot.Domain
open Schemes ZkvmContract.HostIo

variable (hmac : List UInt8 → List UInt8 → Bytes 32)

/-! ### Signatures -/

section Signatures

theorem isHexDigit_visible {c : Char} (h : isHexDigit c = true) :
    (32 < c.toNat ∧ c.toNat < 127) ∧ c ≠ '.' := by
  obtain ⟨n, hn, rfl⟩ := exists_hexDigit h
  exact (by decide : ∀ n < 16, (32 < (hexDigit n).toNat ∧ (hexDigit n).toNat < 127) ∧ hexDigit n ≠ '.')
    n hn

theorem isPlainText_hexText (bytes : List UInt8) : IsPlainText (hexText bytes) :=
  fun c hc => (isHexDigit_visible (hexText_isHexDigit bytes c hc)).1

/-- A character whose lower-case form is a digit is visible. -/
theorem ascii_of_toLower {c : Char} (h : isHexDigit c.toLower = true) : c.toNat < 128 := by
  rcases toLower_cases c with hsame | ⟨-, hhigh, -⟩
  · rw [hsame] at h
    exact (isHexDigit_visible h).1.2.trans (by decide)
  · have hcode := UInt32.le_iff_toNat_le.mp hhigh
    exact lt_of_le_of_lt hcode (by decide)

/-- SIGNATURE: one is taken for another exactly when they are the same text but for
    the case of the letters. -/
theorem safeTimingEqualHex_iff (mac : Bytes 32) (provided : Units) :
    safeTimingEqualHex (hexText mac.toList) provided = true ↔
      ∃ text, provided = units text ∧ toLowerCase text = hexText mac.toList := by
  have hmac : bufferFromHex (hexText mac.toList) = mac.toList :=
    bufferFromHex_of_lower (toLowerCase_hexText _)
  constructor
  · intro h
    simp only [safeTimingEqualHex] at h
    split_ifs at h with hform
    rw [not_or, not_not, not_not, List.all_eq_true] at hform
    obtain ⟨hlength, hdigits⟩ := hform
    have hlower : ∀ c ∈ toLowerCase (provided.map unitChar), isHexDigit c = true := by
      intro c hc
      obtain ⟨d, hd, rfl⟩ := List.mem_map.mp hc
      exact hdigits d hd
    obtain ⟨bytes, hbytes⟩ := exists_hexText _ hlower (by rw [toLowerCase, List.length_map, hlength])
    rw [hbytes, hmac, bufferFromHex_of_lower (toLowerCase_hexText _), Bool.and_eq_true,
      decide_eq_true_eq, decide_eq_true_eq] at h
    refine ⟨provided.map unitChar, (units_map_unitChar ?_).symm, by rw [hbytes, h.2]⟩
    intro unit hunit
    exact ascii_of_toLower (hdigits _ (List.mem_map_of_mem hunit))
  · rintro ⟨text, rfl, htext⟩
    have hdigits : ∀ c ∈ text, isHexDigit c.toLower = true := by
      intro c hc
      exact hexText_isHexDigit mac.toList _ (by rw [← htext]; exact List.mem_map_of_mem hc)
    have hlength : text.length = 64 := by
      have hcount := congrArg List.length htext
      rwa [toLowerCase, List.length_map, hexText_length, mac.length_eq] at hcount
    have hall : (text.all fun c => isHexDigit c.toLower) = true := List.all_eq_true.mpr hdigits
    simp only [safeTimingEqualHex, map_unitChar_units fun c hc => ascii_of_toLower (hdigits c hc),
      hlength, hall, htext]
    simp

end Signatures

/-! ### Authentication -/

section Authentication

variable (secret : Units) (payload : JsString)

/-- The text of which a token's signature is taken. -/
def signedText (payload : Units) : Units := TOKEN_VERSION ++ units (js ".") ++ payload

def tokenText (payload : Units) : Units :=
  signedText payload ++ units (js ".") ++ units (sign hmac (signedText payload) secret)

theorem dot_not_mem {s : JsString} (hplain : IsPlainText s) (hdot : ∀ c ∈ s, c ≠ '.') :
    46 ∉ units s := by
  intro hmem
  obtain ⟨c, hc, hunit⟩ := mem_units hplain.ascii hmem
  have hnat := congrArg UInt16.toNat hunit
  rw [toNat_unitOf (hplain.ascii c hc)] at hnat
  exact hdot c hc (Char.toNat_inj.mp hnat.symm)

theorem tokenText_eq_intercalate : tokenText hmac secret (units payload) = [46].intercalate
    [TOKEN_VERSION, units payload, units (sign hmac (signedText (units payload)) secret)] := by
  have hdot : units (js ".") = [46] := by decide
  simp [tokenText, signedText, hdot, List.intercalate]

variable {payload}

theorem isPlainText_append {s s' : JsString} (h : IsPlainText s) (h' : IsPlainText s') :
    IsPlainText (s ++ s') := by
  intro c hc
  rcases List.mem_append.mp hc with hc | hc
  · exact h c hc
  · exact h' c hc

theorem trimUnits_tokenText (hplain : IsPlainText payload) :
    trimUnits (tokenText hmac secret (units payload)) = tokenText hmac secret (units payload) := by
  have hversion : IsPlainText (js "v1") := isPlainText_of_all (by decide)
  have hdot : IsPlainText (js ".") := isPlainText_of_all (by decide)
  rw [tokenText, signedText,
    TOKEN_VERSION, ← units_append, ← units_append, ← units_append, ← units_append]
  exact trimUnits_units
    (isPlainText_append (isPlainText_append (isPlainText_append (isPlainText_append hversion hdot)
    hplain) hdot) (isPlainText_hexText _))

/-- SIGNED: a token with a payload of visible characters is authenticated, and its payload is found. -/
theorem authenticate_tokenText (hplain : IsPlainText payload) (hdot : ∀ c ∈ payload, c ≠ '.')
    (hne : payload ≠ []) :
    authenticateCapabilityPayload hmac (tokenText hmac secret (units payload)) secret =
      some (units payload) := by
  have hversionDot : 46 ∉ TOKEN_VERSION := by decide
  have hsignDot : 46 ∉ units (sign hmac (signedText (units payload)) secret) :=
    dot_not_mem (isPlainText_hexText _) fun c hc => (isHexDigit_visible (hexText_isHexDigit _ c hc)).2
  have hunits {s : JsString} (hs : IsPlainText s) (hsne : s ≠ []) : units s ≠ [] := by
    intro hnil
    have hread := map_unitChar_units hs.ascii
    rw [hnil] at hread
    exact hsne hread.symm
  have hsignNe : sign hmac (signedText (units payload)) secret ≠ [] := by
    intro hnil
    have hlength := congrArg List.length hnil
    rw [sign, hexText_length, Bytes.length_eq] at hlength
    cases hlength
  have hsplit : (tokenText hmac secret (units payload)).splitOn 46 =
      [TOKEN_VERSION, units payload, units (sign hmac (signedText (units payload)) secret)] := by
    rw [tokenText_eq_intercalate]
    refine List.splitOn_intercalate 46 ?_ (List.cons_ne_nil _ _)
    intro part hpart
    simp only [List.mem_cons, List.not_mem_nil, or_false] at hpart
    rcases hpart with rfl | rfl | rfl
    · exact hversionDot
    · exact dot_not_mem hplain hdot
    · exact hsignDot
  have hsame : safeTimingEqualHex (sign hmac (signedText (units payload)) secret)
      (units (sign hmac (signedText (units payload)) secret)) = true :=
    (safeTimingEqualHex_iff _ _).mpr ⟨_, rfl, toLowerCase_hexText _⟩
  rw [authenticateCapabilityPayload, trimUnits_tokenText hmac secret hplain, hsplit]
  simp only
  rw [if_neg, if_neg (not_not.mpr rfl), ← signedText, if_pos hsame]
  rintro (h | h | h)
  · exact absurd h (by decide)
  · exact hunits hplain hne h
  · exact hunits (isPlainText_hexText _) hsignNe h

/-- AUTHENTIC: a token whose payload is found was signed under the secret. -/
theorem of_authenticate {token found : Units}
    (h : authenticateCapabilityPayload hmac token secret = some found) :
    ∃ text, trimUnits token = signedText found ++ units (js ".") ++ units text ∧
      toLowerCase text = sign hmac (signedText found) secret := by
  unfold authenticateCapabilityPayload at h
  split at h
  · rename_i version payload signature hsplit
    split_ifs at h with hempty hversion hsame
    obtain rfl := Option.some.inj h
    rw [not_not] at hversion
    subst hversion
    obtain ⟨text, rfl, htext⟩ := (safeTimingEqualHex_iff _ _).mp hsame
    refine ⟨text, ?_, htext⟩
    have hjoin : [46].intercalate ((trimUnits token).splitOn 46) = trimUnits token :=
      List.intercalate_splitOn 46
    have hdot : units (js ".") = [46] := by decide
    rw [← hjoin, hsplit, signedText, hdot]
    simp [List.intercalate]
  · cases h

end Authentication

/-! ### Times -/

section Times

variable {now : Num} {ttl : ℕ}

theorem secondsOf_ne_nan (h : now ≠ .nan) : secondsOf now ≠ .nan := by
  cases now with
  | nan => exact absurd rfl h
  | infinity negative => exact Num.noConfusion
  | finite q =>
    have hquotient := nearest_ne_nan (q / (1000 : ℕ))
    rw [secondsOf, Num.dividedBy]
    cases hnearest : nearest (q / (1000 : ℕ)) with
    | nan => exact absurd hnearest hquotient
    | infinity negative => exact Num.noConfusion
    | finite r => exact Num.noConfusion

/-- A second after the epoch or later, and before the end of the safe integers, the seconds are a
    natural number. -/
theorem secondsOf_eq_ofNat (hnow : (Num.ofNat 1000).le now = true)
    (hsafe : ((secondsOf now).add (.ofNat ttl)).le (.ofNat Num.maxSafeInteger) = true) :
    ∃ seconds, secondsOf now = .ofNat seconds ∧ 0 < seconds ∧ seconds + ttl ≤ Num.maxSafeInteger := by
  have hseconds : secondsOf now = .infinity false ∨ ∃ r : ℚ, 1 ≤ r ∧ secondsOf now = .finite ⌊r⌋ := by
    cases now with
    | nan => cases hnow
    | infinity negative =>
      cases negative
      · exact .inl rfl
      · cases hnow
    | finite q =>
      rw [Num.ofNat, Num.finite_le, decide_eq_true_eq] at hnow
      have hone : ((1 : ℕ) : ℚ) ≤ q / (1000 : ℕ) := by
        rw [le_div_iff₀ (by norm_num)]
        simpa using hnow
      rcases le_nearest (by decide) Nat.one_pos hone with hinfinite | ⟨r, hr, hle⟩
      · left
        rw [secondsOf, Num.dividedBy, hinfinite]
        rfl
      · right
        refine ⟨r, by simpa using hle, ?_⟩
        rw [secondsOf, Num.dividedBy, hr]
        rfl
  rcases hseconds with hinfinite | ⟨r, hr, hseconds⟩
  · rw [hinfinite] at hsafe
    cases hsafe
  · have hfloor : 1 ≤ ⌊r⌋ := Int.le_floor.mpr (by simpa using hr)
    have hnat : secondsOf now = .ofNat ⌊r⌋.toNat := by
      have hcast : ((⌊r⌋.toNat : ℕ) : ℤ) = ⌊r⌋ := Int.toNat_of_nonneg (by omega)
      rw [hseconds, Num.ofNat, ← Int.cast_natCast, hcast]
    refine ⟨⌊r⌋.toNat, hnat, by omega, ?_⟩
    rwa [hnat, Num.ofNat_add, Num.ofNat_le, decide_eq_true_eq] at hsafe

end Times

/-! ### Tokens -/

section Tokens

variable {secret : Units} {options : VerifyOptions} {clock : Num} {claims : SessionCapabilityClaims}

/-- The token of some claims. -/
def claimsToken (claims : SessionCapabilityClaims) (secret : Units) : Units :=
  tokenText hmac secret (units (encodeBase64Url claims.toJson.stringify))

theorem authenticate_claimsToken (claims : SessionCapabilityClaims) (secret : Units) :
    authenticateCapabilityPayload hmac (claimsToken hmac claims secret) secret =
      some (units (encodeBase64Url claims.toJson.stringify)) := by
  have hne : encodeBase64Url claims.toJson.stringify ≠ [] := by
    rw [encodeBase64Url_eq]
    exact unpadded_ne_nil (utf8_ne_nil (List.cons_ne_nil _ _))
  refine authenticate_tokenText hmac secret ?_ ?_ hne
  · rw [encodeBase64Url_eq]
    exact isPlainText_unpadded _
  · intro c hc
    rw [encodeBase64Url_eq] at hc
    exact (urlDigit_cases hc).2.2

/-- What is left of a verification when the claims of the token are known. -/
theorem verify_claims {token payload : Units}
    (hpayload : authenticateCapabilityPayload hmac token secret = some payload)
    (hclaims : parseCapabilityClaims payload = some claims)
    (hsession : trimUnits options.sessionId ≠ []) :
    verifySessionCapabilityToken hmac token secret options clock =
      if claims.sid ≠ trimUnits options.sessionId then .error .sessionMismatch
      else if (resolveCapabilityMaxTtl options.maxTtlSeconds).lt (claims.exp.minus claims.iat) ∨
          claims.exp.le claims.iat then .error .invalid
      else if claims.exp.le (secondsOf (options.nowMs.getD clock)) then .error .expired
      else .ok ⟨options.sessionId, claims.iat, claims.exp, claims.nonce⟩ := by
  simp only [verifySessionCapabilityToken, if_neg hsession, hpayload, hclaims]

theorem resolveCapabilityMaxTtl_pos (value : Option Num) :
    (Num.ofNat 0).lt (resolveCapabilityMaxTtl value) = true := by
  cases value with
  | none => decide
  | some ttl =>
    simp only [resolveCapabilityMaxTtl, positiveOr]
    split_ifs with hinteger
    · exact (Bool.and_eq_true_iff.mp hinteger).2
    · decide

theorem resolveCapabilityMaxTtl_ne_nan (value : Option Num) : resolveCapabilityMaxTtl value ≠ .nan := by
  intro hnan
  have hpos := resolveCapabilityMaxTtl_pos value
  rw [hnan] at hpos
  cases hpos

/-- CREATED: with a session and a lifetime, the token of these claims is created. -/
theorem createSessionCapabilityToken_eq {sessionId nonce : Units} {now : Num} {ttl : ℕ} (secret : Units)
    (clock : Num) (random : Bytes 16) (hsession : trimUnits sessionId ≠ []) (hpos : 0 < ttl) :
    createSessionCapabilityToken hmac ⟨sessionId, some now, some (.ofNat ttl), some nonce⟩ secret
      clock random =
      .ok (claimsToken hmac ⟨trimUnits sessionId, secondsOf now, (secondsOf now).plus (.ofNat ttl),
        nonce⟩ secret) := by
  have httl : positiveOr DEFAULT_SESSION_CAPABILITY_TTL_SECONDS (some (.ofNat ttl)) = .ofNat ttl := by
    simp [positiveOr, hpos]
  have hbrand (payload : Units) :
      asCapabilityToken (tokenText hmac secret payload) = .ok (tokenText hmac secret payload) := by
    rw [asCapabilityToken, refuseIf_of_not]
    · rfl
    · rw [tokenText, signedText, List.append_assoc, List.append_assoc, List.append_assoc]
      exact List.append_ne_nil_of_left_ne_nil (by decide) _
  rw [createSessionCapabilityToken, refuseIf_of_not hsession, ok_bind]
  simp only [Option.getD_some, httl]
  exact hbrand _

/-- EXACT: the token of claims with safe times is accepted for their session before they expire. -/
theorem verify_claimsToken {sid nonce sessionId' : Units} {iat ttl : ℕ} {now' : Num}
    {maxTtlSeconds : Option Num} {payload : SessionCapabilityPayload} (secret : Units) (clock : Num)
    (hsid : sid ≠ []) (hnonce : nonce ≠ []) (hiat : 0 < iat) (hpos : 0 < ttl)
    (hsafe : iat + ttl ≤ Num.maxSafeInteger)
    (hmax : (Num.ofNat ttl).le (resolveCapabilityMaxTtl maxTtlSeconds) = true) (hnow : now' ≠ .nan) :
    verifySessionCapabilityToken hmac
        (claimsToken hmac ⟨sid, .ofNat iat, .ofNat (iat + ttl), nonce⟩ secret) secret
        ⟨sessionId', some now', maxTtlSeconds⟩ clock = .ok payload ↔
      trimUnits sessionId' = sid ∧ (secondsOf now').lt (.ofNat (iat + ttl)) = true ∧
        payload = ⟨sessionId', .ofNat iat, .ofNat (iat + ttl), nonce⟩ := by
  by_cases hsession : trimUnits sessionId' = []
  · have hverify :
        verifySessionCapabilityToken hmac (claimsToken hmac ⟨sid, .ofNat iat, .ofNat (iat + ttl), nonce⟩
        secret) secret ⟨sessionId', some now', maxTtlSeconds⟩ clock = .error .invalid := if_pos hsession
    rw [hverify, hsession]
    exact ⟨(fun h => by cases h), fun h => absurd h.1.symm hsid⟩
  have hparse :=
    @parseCapabilityClaims_payload ⟨sid, .ofNat iat, .ofNat (iat + ttl), nonce⟩ iat
      (iat + ttl) hsid hnonce
    rfl rfl hiat (by omega) hsafe
  have hlifetime :
      (resolveCapabilityMaxTtl maxTtlSeconds).lt ((Num.ofNat (iat + ttl)).minus (.ofNat iat)) =
        false := by
    rw [Num.minus_ofNat (by omega) hsafe, Nat.add_sub_cancel_left]
    rwa [Num.le_eq_not_lt (Num.ofNat_ne_nan _) (resolveCapabilityMaxTtl_ne_nan _),
      Bool.not_eq_true'] at hmax
  have horder : (Num.ofNat (iat + ttl)).le (.ofNat iat) = false := by
    rw [Num.ofNat_le, decide_eq_false_iff_not]
    omega
  rw [verify_claims hmac (authenticate_claimsToken hmac _ secret) hparse hsession]
  simp only [Option.getD_some, hlifetime, horder, Bool.false_eq_true, or_self, if_false,
    Num.le_eq_not_lt (Num.ofNat_ne_nan _) (secondsOf_ne_nan hnow)]
  split_ifs with hother hexpired
  · exact ⟨(fun h => by cases h), fun h => absurd h.1.symm hother⟩
  · rw [Bool.not_eq_true'] at hexpired
    rw [hexpired]
    exact ⟨(fun h => by cases h), fun h => by cases h.2.1⟩
  · rw [Bool.not_eq_true', Bool.not_eq_false] at hexpired
    rw [not_not] at hother
    rw [hexpired, hother]
    exact ⟨fun h => ⟨rfl, rfl, (Except.ok.inj h).symm⟩, fun h => congrArg Except.ok h.2.2.symm⟩

theorem ascii_of_isUrlDigit {c : Char} (h : isUrlDigit c = true) : c.toNat < 128 := by
  have hnine : '9'.toNat = 57 := rfl
  simp only [isUrlDigit, Bool.or_eq_true, Bool.and_eq_true, decide_eq_true_eq] at h
  rcases h with (((⟨-, h⟩ | ⟨-, h⟩) | h) | rfl) | rfl
  · omega
  · omega
  · have hdigit := Char.isDigit_iff_toNat.mp h
    omega
  · decide
  · decide

/-- DECODED: what claims are read from is a text of the alphabet, and their times are integers. -/
theorem of_parseCapabilityClaims {found : Units} (h : parseCapabilityClaims found = some claims) :
    (∃ p : JsString, found = units p ∧ ∀ c ∈ p, c.toNat < 128) ∧
      claims.iat.isInteger = true ∧ claims.exp.isInteger = true := by
  obtain ⟨decoded, hdecoded, h⟩ := Option.bind_eq_some_iff.mp h
  constructor
  · simp only [decodeBase64Url] at hdecoded
    split at hdecoded
    · cases hdecoded
    rename_i hform
    rw [not_or, not_not, List.all_eq_true] at hform
    have hascii : ∀ c ∈ found.map unitChar, c.toNat < 128 :=
      fun c hc => ascii_of_isUrlDigit (hform.2 c hc)
    refine ⟨found.map unitChar, (units_map_unitChar fun unit hunit => ?_).symm, hascii⟩
    exact hascii _ (List.mem_map_of_mem hunit)
  · split_ifs at h
    obtain ⟨value, -, h⟩ := Option.bind_eq_some_iff.mp h
    unfold claimsOfJson at h
    split at h
    · split_ifs at h with hclaims
      obtain rfl := Option.some.inj h
      obtain ⟨-, -, hiat, hexp⟩ := hclaims
      exact ⟨(Bool.and_eq_true_iff.mp hiat).1, (Bool.and_eq_true_iff.mp hexp).1⟩
    · cases h

theorem utf8Units_signedText {p : JsString} (h : ∀ c ∈ p, c.toNat < 128) :
    utf8Units (signedText (units p)) = utf8 (js "v1." ++ p) := by
  have hfront : TOKEN_VERSION ++ units (js ".") = units (js "v1.") := by decide
  have hascii : ∀ c ∈ js "v1." ++ p, c.toNat < 128 := by
    intro c hc
    rcases List.mem_append.mp hc with hc | hc
    · exact (isPlainText_of_all (by decide)).ascii c hc
    · exact h c hc
  rw [utf8Units, signedText, hfront, ← units_append, textOfUnits_units hascii]

/-- ACCEPTED: what was verified was signed, and its claims are those of the session, in time. -/
theorem of_verify {token sessionId' : Units} {now' : Num} {maxTtlSeconds : Option Num}
    {payload : SessionCapabilityPayload} (hnow : now' ≠ .nan)
    (h : verifySessionCapabilityToken hmac token secret ⟨sessionId', some now', maxTtlSeconds⟩ clock =
      .ok payload) :
    ∃ (p text : JsString) (claims : SessionCapabilityClaims),
      trimUnits token = units (js "v1." ++ p ++ js "." ++ text) ∧
      toLowerCase text = hexText (hmac (utf8Units secret) (utf8 (js "v1." ++ p))).toList ∧
      parseCapabilityClaims (units p) = some claims ∧ claims.sid = trimUnits sessionId' ∧
      (secondsOf now').lt claims.exp = true ∧
      (claims.exp.minus claims.iat).le (resolveCapabilityMaxTtl maxTtlSeconds) = true ∧
      ((resolveCapabilityMaxTtl maxTtlSeconds).isSafeInteger = true →
        (claims.exp.sub claims.iat).le (resolveCapabilityMaxTtl maxTtlSeconds) = true) ∧
      payload = ⟨sessionId', claims.iat, claims.exp, claims.nonce⟩ := by
  by_cases hsession : trimUnits sessionId' = []
  · have hverify :
        verifySessionCapabilityToken hmac token secret ⟨sessionId', some now', maxTtlSeconds⟩ clock =
        .error .invalid := if_pos hsession
    rw [hverify] at h
    cases h
  cases hfound : authenticateCapabilityPayload hmac token secret with
  | none =>
    simp only [verifySessionCapabilityToken, if_neg hsession, hfound] at h
    cases h
  | some found =>
  cases hclaims : parseCapabilityClaims found with
  | none =>
    simp only [verifySessionCapabilityToken, if_neg hsession, hfound, hclaims] at h
    cases h
  | some claims =>
  rw [verify_claims hmac hfound hclaims hsession] at h
  simp only [Option.getD_some] at h
  split_ifs at h with hother hinvalid hexpired
  rw [not_not] at hother
  rw [not_or, Bool.not_eq_true, Bool.not_eq_true] at hinvalid
  obtain ⟨text, htoken, htext⟩ := of_authenticate hmac secret hfound
  obtain ⟨⟨p, rfl, hp⟩, hiat, hexp⟩ := of_parseCapabilityClaims hclaims
  have hfront : TOKEN_VERSION ++ units (js ".") = units (js "v1.") := by decide
  have hexpNan : claims.exp ≠ .nan := by
    intro hnan
    rw [hnan] at hexp
    cases hexp
  refine ⟨p, text, claims, ?_, ?_, hclaims, hother, ?_, ?_, ?_, (Except.ok.inj h).symm⟩
  · rw [htoken, signedText, hfront, units_append, units_append, units_append]
  · rw [htext, sign, utf8Units_signedText hp]
  · rw [Num.le_eq_not_lt hexpNan (secondsOf_ne_nan hnow), Bool.not_eq_true',
      Bool.not_eq_false] at hexpired
    exact hexpired
  · rw [Num.le_eq_not_lt (Num.minus_ne_nan hexp hiat) (resolveCapabilityMaxTtl_ne_nan _), hinvalid.1]
    rfl
  · intro hsafe
    have hmax := Num.eq_ofNat_toNat (Num.isInteger_of_isSafeInteger hsafe)
      (Num.lt_asymm (resolveCapabilityMaxTtl_pos maxTtlSeconds))
    have hle := Num.toNat_le_of_safe hsafe
    rw [hmax] at hinvalid ⊢
    exact Num.sub_le_of_minus hexp hiat hle hinvalid.1

/-- EXACT: a created token is accepted for its session until it expires, and an accepted token was
    signed for claims of the session that have not expired. -/
theorem sessionCapabilityToken_exact (secret : Units) (maxTtlSeconds : Option Num) :
    (∀ (sessionId nonce : Units) (now : Num) (ttl : ℕ) (clock : Num) (random : Bytes 16),
      trimUnits sessionId ≠ [] → nonce ≠ [] → (Num.ofNat 1000).le now = true → 0 < ttl →
      (Num.ofNat ttl).le (resolveCapabilityMaxTtl maxTtlSeconds) = true →
      ((secondsOf now).add (.ofNat ttl)).le (.ofNat Num.maxSafeInteger) = true →
      ∃ token, createSessionCapabilityToken hmac ⟨sessionId, some now, some (.ofNat ttl), some nonce⟩
          secret clock random = .ok token ∧
        ∀ (sessionId' : Units) (now' clock' : Num) (payload : SessionCapabilityPayload), now' ≠ .nan →
          (verifySessionCapabilityToken hmac token secret ⟨sessionId', some now', maxTtlSeconds⟩
            clock' = .ok payload ↔
            trimUnits sessionId' = trimUnits sessionId ∧
            (secondsOf now').lt ((secondsOf now).add (.ofNat ttl)) = true ∧
            payload = ⟨sessionId', secondsOf now, (secondsOf now).add (.ofNat ttl), nonce⟩)) ∧
    ∀ (token sessionId' : Units) (now' clock' : Num) (payload : SessionCapabilityPayload), now' ≠ .nan →
      verifySessionCapabilityToken hmac token secret ⟨sessionId', some now', maxTtlSeconds⟩ clock' =
        .ok payload →
      ∃ (p text : JsString) (claims : SessionCapabilityClaims),
        trimUnits token = units (js "v1." ++ p ++ js "." ++ text) ∧
        toLowerCase text = hexText (hmac (utf8Units secret) (utf8 (js "v1." ++ p))).toList ∧
        parseCapabilityClaims (units p) = some claims ∧ claims.sid = trimUnits sessionId' ∧
        (secondsOf now').lt claims.exp = true ∧
        (claims.exp.minus claims.iat).le (resolveCapabilityMaxTtl maxTtlSeconds) = true ∧
        ((resolveCapabilityMaxTtl maxTtlSeconds).isSafeInteger = true →
          (claims.exp.sub claims.iat).le (resolveCapabilityMaxTtl maxTtlSeconds) = true) ∧
        payload = ⟨sessionId', claims.iat, claims.exp, claims.nonce⟩ := by
  constructor
  · intro sessionId nonce now ttl clock random hsession hnonce hnow hpos hmax hsafe
    obtain ⟨seconds, hseconds, hone, hsum⟩ := secondsOf_eq_ofNat hnow hsafe
    refine ⟨_, createSessionCapabilityToken_eq hmac secret clock random hsession hpos, ?_⟩
    intro sessionId' now' clock' payload hnow'
    rw [hseconds, Num.plus_ofNat hsum, Num.ofNat_add]
    exact verify_claimsToken hmac secret clock' hsession hnonce hone hpos hsum hmax hnow'
  · intro token sessionId' now' clock' payload hnow' hverify
    exact of_verify hmac hnow' hverify

end Tokens

/-! ### Samples -/

/-- HMAC-SHA256. -/
def hmacSha256 (key message : List UInt8) : Bytes 32 :=
  let block := if 64 < key.length then (Sha256.digest key).toList else key
  let padded := block ++ List.replicate (64 - block.length) 0
  Sha256.digest (padded.map (· ^^^ 0x5c) ++ (Sha256.digest (padded.map (· ^^^ 0x36) ++ message)).toList)

example : (hmacSha256 (ascii "Jefe") (ascii "what do ya want for nothing?")).toList.take 4 =
    [0x5b, 0xdc, 0xc1, 0x46] := by decide +kernel

/-- A session that is named by a character, half of a pair and blanks. -/
def halfPairSession : Units := [32, 0xD83D, 0xDE00, 0xD800, 32]

def sampleNow : Num := .ofNat 1700000000123

/-- Half a minute after it was created, the token is accepted for the session. -/
theorem sessionCapabilityToken_on_sample : ∃ token,
    createSessionCapabilityToken hmacSha256 ⟨halfPairSession, some sampleNow, some (.ofNat 60),
        some (units (js "n"))⟩ (units (js "k")) .nan (Bytes.fill 16 0) = .ok token ∧
      verifySessionCapabilityToken hmacSha256 token (units (js "k"))
        ⟨halfPairSession.dropLast, some (.ofNat 1700000030000), none⟩ .nan =
          .ok ⟨halfPairSession.dropLast, secondsOf sampleNow, (secondsOf sampleNow).add (.ofNat 60),
            units (js "n")⟩ ∧
      ∃ (p : JsString) (claims : SessionCapabilityClaims),
        parseCapabilityClaims (units p) = some claims ∧
        claims.sid = trimUnits halfPairSession := by
  obtain ⟨token, hcreate, hverify⟩ :=
    (sessionCapabilityToken_exact hmacSha256 (units (js "k")) none).1 halfPairSession
    (units (js "n")) sampleNow 60 .nan (Bytes.fill 16 0) (by decide +kernel) (by decide)
      (by decide +kernel) (by decide)
    (by decide +kernel) (by decide +kernel)
  have haccepted :=
    (hverify halfPairSession.dropLast (.ofNat 1700000030000) .nan _ (Num.ofNat_ne_nan _)).mpr
    ⟨by decide +kernel, by decide +kernel, rfl⟩
  obtain ⟨p, text, claims, -, -, hparse, hsid, -⟩ :=
    (sessionCapabilityToken_exact hmacSha256 (units (js "k")) none).2 token _ _ .nan
      _ (Num.ofNat_ne_nan _) haccepted
  exact ⟨token, hcreate, haccepted, p, claims, hparse, hsid.trans (by decide)⟩

/-- The millisecond at which the seconds leave the safe integers. -/
def farNow : Num := .ofNat (9007199254740992 * 1000)

/-- At a time that is NaN an expired token is accepted; where sums are rounded, a token is refused as
    soon as it is created. -/
theorem sessionCapabilityToken_beyond_times :
    (∃ token payload, createSessionCapabilityToken hmacSha256
        ⟨units (js "s"), some (.ofNat 1000), some (.ofNat 1), some (units (js "n"))⟩
          (units (js "k")) .nan (Bytes.fill 16 0) = .ok token ∧
      verifySessionCapabilityToken hmacSha256 token (units (js "k"))
        ⟨units (js "s"), some .nan, none⟩ .nan = .ok payload ∧
      (secondsOf .nan).lt ((secondsOf (.ofNat 1000)).add (.ofNat 1)) = false) ∧
    ∃ token, createSessionCapabilityToken hmacSha256
        ⟨units (js "s"), some farNow, some (.ofNat 3), some (units (js "n"))⟩
          (units (js "k")) .nan (Bytes.fill 16 0) = .ok token ∧
      verifySessionCapabilityToken hmacSha256 token (units (js "k"))
        ⟨units (js "s"), some farNow, some (.ofNat 3)⟩ .nan = .error .invalid ∧
      (secondsOf farNow).lt ((secondsOf farNow).add (.ofNat 3)) = true := by
  constructor
  · refine ⟨_, ⟨units (js "s"), .ofNat 1, .ofNat 2, units (js "n")⟩,
      createSessionCapabilityToken_eq hmacSha256 _ _ _ (by decide) (by decide), ?_, rfl⟩
    rw [verify_claims hmacSha256 (authenticate_claimsToken hmacSha256 _ _)
      (by decide +kernel : parseCapabilityClaims _ =
        some ⟨units (js "s"), .ofNat 1, .ofNat 2, units (js "n")⟩) (by decide)]
    decide +kernel
  · refine ⟨_, createSessionCapabilityToken_eq hmacSha256 _ _ _ (by decide) (by decide),
      ?_, by decide +kernel⟩
    rw [verify_claims hmacSha256 (authenticate_claimsToken hmacSha256 _ _)
      (by decide +kernel : parseCapabilityClaims _ =
        some ⟨units (js "s"), .ofNat 9007199254740992, .ofNat 9007199254740996, units (js "n")⟩)
          (by decide)]
    decide +kernel

end StarkBallot.Domain
