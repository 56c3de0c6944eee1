import Mathlib.Algebra.Ring.Nat
import Mathlib.Data.List.Basic

/-! Unique decodability. An encoder is *self-delimiting* when a code word can be cut off the front of a
    byte string in at most one way: `enc a ++ r = enc b ++ r'` forces `a = b` and `r = r'`. Encoders of
    one length are self-delimiting when injective, and a list of known length of self-delimiting code
    words is self-delimiting, which is all a format of fixed fields and counted sequences needs. -/

namespace StarkBallot.Schemes

variable {α β : Type}

/-- Cut one code word off the front in at most one way (for values that satisfy `P`). -/
def SelfDelimiting (P : α → Prop) (enc : α → List β) : Prop :=
  ∀ ⦃a b : α⦄ ⦃r r' : List β⦄, P a → P b → enc a ++ r = enc b ++ r' → a = b ∧ r = r'

/-- An injective encoder whose code words all have one length. -/
theorem selfDelimiting_of_length {P : α → Prop} {enc : α → List β} {n : ℕ}
    (hlen : ∀ a, (enc a).length = n) (hinj : ∀ a b, P a → P b → enc a = enc b → a = b) :
    SelfDelimiting P enc := by
  intro a b r r' ha hb h
  obtain ⟨hcode, hrest⟩ := List.append_inj h (by rw [hlen, hlen])
  exact ⟨hinj a b ha hb hcode, hrest⟩

/-- Lists of one length of self-delimiting code words. -/
theorem SelfDelimiting.flatMap {P : α → Prop} {enc : α → List β} (henc : SelfDelimiting P enc) :
    ∀ {l l' : List α} {r r' : List β}, l.length = l'.length → (∀ a ∈ l, P a) → (∀ a ∈ l', P a) →
      l.flatMap enc ++ r = l'.flatMap enc ++ r' → l = l' ∧ r = r'
  | [], [], _, _, _, _, _, h => ⟨rfl, by simpa using h⟩
  | a :: l, a' :: l', r, r', hlen, hl, hl', h => by
      rw [List.flatMap_cons, List.flatMap_cons, List.append_assoc, List.append_assoc] at h
      obtain ⟨ha, htail⟩ := henc (hl a (by simp)) (hl' a' (by simp)) h
      obtain ⟨hrest, hr⟩ := henc.flatMap (by simpa using hlen) (fun x hx => hl x (by simp [hx]))
        (fun x hx => hl' x (by simp [hx])) htail
      exact ⟨by rw [ha, hrest], hr⟩
  | [], _ :: _, _, _, hlen, _, _, _ => by simp at hlen
  | _ :: _, [], _, _, hlen, _, _, _ => by simp at hlen

/-! ### Little-endian integers -/

/-- The low `width` bytes of `n`, least significant first. -/
def leBytes : ℕ → ℕ → List UInt8
  | 0, _ => []
  | width + 1, n => UInt8.ofNat (n % 256) :: leBytes width (n / 256)

@[simp] theorem leBytes_length : ∀ width n, (leBytes width n).length = width
  | 0, _ => rfl
  | width + 1, n => by rw [leBytes, List.length_cons, leBytes_length width]

theorem leBytes_inj : ∀ {width m n : ℕ}, m < 256 ^ width → n < 256 ^ width →
    leBytes width m = leBytes width n → m = n
  | 0, m, n, hm, hn, _ => by rw [Nat.pow_zero] at hm hn; omega
  | width + 1, m, n, hm, hn, h => by
      simp only [leBytes, List.cons.injEq] at h
      have hlow : m % 256 = n % 256 := by
        have := congrArg UInt8.toNat h.1
        simpa [UInt8.toNat_ofNat'] using this
      rw [Nat.pow_succ] at hm hn
      have hhigh := leBytes_inj (Nat.div_lt_of_lt_mul (by omega)) (Nat.div_lt_of_lt_mul (by omega)) h.2
      omega

/-- Fixed-width integers are self-delimiting. -/
theorem selfDelimiting_leBytes (width : ℕ) : SelfDelimiting (· < 256 ^ width) (leBytes width) :=
  selfDelimiting_of_length (leBytes_length width) fun _ _ => leBytes_inj

end StarkBallot.Schemes
