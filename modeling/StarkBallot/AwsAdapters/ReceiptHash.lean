import StarkBallot.AwsAdapters.DynamoRecords
import StarkBallot.Runtime.Texts
import StarkBallot.Schemes.Collision
import StarkBallot.ZkvmContract.HostIo

/-! The hash of a published receipt (`aws-adapters/src/store/successfulFinalizationReceipt.ts`). It is
    taken of the text and of the decimal digits of the time, one after the other,
    with nothing between them.

        receipt  a     timestamp  12    ──▶  a12
        receipt  a1    timestamp   2    ──▶  a12

    So digits of the time that stand at the end of a text are hashed as the same message. -/

namespace StarkBallot.AwsAdapters.Dynamo
open Schemes ContractCore CryptoPrimitives Domain Application

/-! ### Receipts by their units -/

/-- A receipt with the units of its text. -/
structure ReceiptOfUnits where
  receipt : List UInt16
  timestamp : Num
  deriving DecidableEq

/-- The receipt as it is hashed, where half a pair is replaced. -/
def ReceiptOfUnits.hashed (receipt : ReceiptOfUnits) : SuccessfulFinalizationReceipt :=
  ⟨textOfUnits receipt.receipt, receipt.timestamp⟩

def AdmittedReceipt (receipt : ReceiptOfUnits) : Prop :=
  admitSuccessfulFinalizationReceipt (some receipt.hashed) = .ok (some receipt.hashed)

/-- What is hashed. -/
def receiptMessage (receipt : SuccessfulFinalizationReceipt) : List UInt8 :=
  utf8 (receipt.receipt ++ receipt.timestamp.toText.toList)

/-- The text of the second receipt ends with the digits that its time lacks. -/
def DigitsMoved (receipt receipt' : ReceiptOfUnits) : Prop :=
  ∃ digits ≠ [], textOfUnits receipt'.receipt = textOfUnits receipt.receipt ++ digits ∧
    receipt.timestamp.toText.toList = digits ++ receipt'.timestamp.toText.toList

/-- The receipts differ only in units that are replaced when they are hashed. -/
def UnitsReplaced (receipt receipt' : ReceiptOfUnits) : Prop :=
  receipt.receipt ≠ receipt'.receipt ∧ textOfUnits receipt.receipt = textOfUnits receipt'.receipt ∧
    receipt.timestamp = receipt'.timestamp

section Messages

variable {sha256 : List UInt8 → Bytes 32} {receipt receipt' : ReceiptOfUnits}

theorem AdmittedReceipt.timestamp_eq (h : AdmittedReceipt receipt) :
    ∃ n : ℕ, receipt.timestamp = .ofNat n := by
  rcases hcheck : isNonNegativeSafeInteger receipt.timestamp with _ | _
  · rw [AdmittedReceipt, admitSuccessfulFinalizationReceipt, ifPresent, accept,
      ReceiptOfUnits.hashed] at h
    simp [hcheck, okOr] at h
  · obtain ⟨hsafe, hle⟩ := Bool.and_eq_true_iff.mp hcheck
    exact ⟨_, Num.eq_ofNat_toNat (Num.isInteger_of_isSafeInteger hsafe) (Num.lt_eq_false_of_le hle)⟩

theorem computeHash_eq {n : ℕ} (text : JsString) :
    computeSuccessfulFinalizationReceiptHash sha256 ⟨text, .ofNat n⟩ =
      prefixed (sha256 (receiptMessage ⟨text, .ofNat n⟩)) := by
  rw [computeSuccessfulFinalizationReceiptHash, toUTF8_toList, ascii_toText, receiptMessage,
    utf8_append, toText_ofNat]

/-- The times of two receipts can be read off their digits. -/
theorem timestamp_inj (h : AdmittedReceipt receipt) (h' : AdmittedReceipt receipt')
    (heq : receipt.timestamp.toText.toList = receipt'.timestamp.toText.toList) :
    receipt.timestamp = receipt'.timestamp := by
  obtain ⟨n, hn⟩ := h.timestamp_eq
  obtain ⟨n', hn'⟩ := h'.timestamp_eq
  rw [hn, hn', toText_ofNat, toText_ofNat] at heq
  rw [hn, hn', decimal_injective heq]

/-- One message: the texts and the times are the same, or digits have moved from one to the other. -/
theorem receiptMessage_eq_iff (h : AdmittedReceipt receipt) (h' : AdmittedReceipt receipt') :
    receiptMessage receipt.hashed = receiptMessage receipt'.hashed ↔
      receipt.hashed = receipt'.hashed ∨ DigitsMoved receipt receipt' ∨
      DigitsMoved receipt' receipt := by
  unfold receiptMessage
  rw [utf8_injective.eq_iff]
  constructor
  · intro heq
    rcases List.append_eq_append_iff.mp heq with ⟨digits, htext, htime⟩ | ⟨digits, htext, htime⟩
    · by_cases hdigits : digits = []
      · subst hdigits
        rw [List.append_nil] at htext
        left
        rw [ReceiptOfUnits.hashed, ReceiptOfUnits.hashed, timestamp_inj h h' htime]
        congr 1
        exact htext.symm
      · exact .inr (.inl ⟨digits, hdigits, htext, htime⟩)
    · by_cases hdigits : digits = []
      · subst hdigits
        rw [List.append_nil] at htext
        left
        rw [ReceiptOfUnits.hashed, ReceiptOfUnits.hashed, timestamp_inj h' h htime]
        congr 1
      · exact .inr (.inr ⟨digits, hdigits, htext, htime⟩)
  · rintro (heq | ⟨digits, -, htext, htime⟩ | ⟨digits, -, htext, htime⟩)
    · rw [heq]
    · simp only [ReceiptOfUnits.hashed, htext, htime, List.append_assoc]
    · simp only [ReceiptOfUnits.hashed, htext, htime, List.append_assoc]

theorem DigitsMoved.ne (h : DigitsMoved receipt receipt') : receipt ≠ receipt' := by
  rintro rfl
  obtain ⟨digits, hne, htext, -⟩ := h
  exact hne (List.self_eq_append_right.mp htext)

variable (sha256) in
/-- One hash leads to one receipt, or to a collision among the two messages. -/
def BindsReceipts (receipt receipt' : ReceiptOfUnits) : Prop :=
  computeSuccessfulFinalizationReceiptHash sha256 receipt.hashed =
    computeSuccessfulFinalizationReceiptHash sha256 receipt'.hashed →
  receipt = receipt' ∨
    Exhibits sha256
      (findCollision sha256 [receiptMessage receipt.hashed, receiptMessage receipt'.hashed])

theorem hash_eq_iff (h : AdmittedReceipt receipt) (h' : AdmittedReceipt receipt') :
    computeSuccessfulFinalizationReceiptHash sha256 receipt.hashed =
        computeSuccessfulFinalizationReceiptHash sha256 receipt'.hashed ↔
      sha256 (receiptMessage receipt.hashed) = sha256 (receiptMessage receipt'.hashed) := by
  obtain ⟨n, hn⟩ := h.timestamp_eq
  obtain ⟨n', hn'⟩ := h'.timestamp_eq
  rw [ReceiptOfUnits.hashed, ReceiptOfUnits.hashed, hn, hn', computeHash_eq, computeHash_eq,
    prefixed_injective.eq_iff]

/-- Different receipts of one message are not bound. -/
theorem not_bindsReceipts (h : AdmittedReceipt receipt) (h' : AdmittedReceipt receipt')
    (hne : receipt ≠ receipt')
    (hmessage : receiptMessage receipt.hashed = receiptMessage receipt'.hashed) :
    ¬ BindsReceipts sha256 receipt receipt' := by
  intro hbinds
  rcases hbinds ((hash_eq_iff h h').mpr (by rw [hmessage])) with heq | hcollision
  · exact hne heq
  · refine not_exhibits_of_injOn ?_ hcollision
    rw [hmessage]
    rintro message hmem message' hmem' -
    simp only [List.mem_cons, List.not_mem_nil, or_false, or_self, Set.mem_ofPred_eq] at hmem hmem'
    rw [hmem, hmem']

/-- BINDING: the hash binds the text and the time of two receipts exactly if no digit of a time has
    moved to a text and the texts do not differ in replaced units alone. -/
theorem receipt_hash_binds_iff (h : AdmittedReceipt receipt) (h' : AdmittedReceipt receipt') :
    BindsReceipts sha256 receipt receipt' ↔
      ¬ DigitsMoved receipt receipt' ∧ ¬ DigitsMoved receipt' receipt ∧
      ¬ UnitsReplaced receipt receipt' := by
  constructor
  · intro hbinds
    refine ⟨fun hmoved => ?_, fun hmoved => ?_, fun hreplaced => ?_⟩
    · exact not_bindsReceipts h h' hmoved.ne
        ((receiptMessage_eq_iff h h').mpr (.inr (.inl hmoved))) hbinds
    · exact not_bindsReceipts h h' hmoved.ne.symm
        ((receiptMessage_eq_iff h h').mpr (.inr (.inr hmoved))) hbinds
    · obtain ⟨hne, htext, htime⟩ := hreplaced
      refine not_bindsReceipts h h' (fun heq => hne (congrArg ReceiptOfUnits.receipt heq)) ?_ hbinds
      rw [ReceiptOfUnits.hashed, ReceiptOfUnits.hashed, htext, htime]
  · rintro ⟨hmoved, hmoved', hreplaced⟩ (heq : computeSuccessfulFinalizationReceiptHash _ _ = _)
    rcases injOn_or_collision sha256 [receiptMessage receipt.hashed, receiptMessage receipt'.hashed] with
      hinj | hcollision
    · left
      have hmessage :=
        hinj List.mem_cons_self (List.mem_cons_of_mem _ List.mem_cons_self) ((hash_eq_iff h h').mp heq)
      rcases (receiptMessage_eq_iff h h').mp hmessage with hhashed | hdigits | hdigits
      · obtain ⟨htext, htime⟩ := SuccessfulFinalizationReceipt.mk.inj hhashed
        by_contra hne
        refine hreplaced ⟨fun hunits => hne ?_, htext, htime⟩
        cases receipt
        cases receipt'
        cases hunits
        cases htime
        rfl
      · exact absurd hdigits hmoved
      · exact absurd hdigits hmoved'
    · exact .inr hcollision

/-- Well-formed texts have no replaced units. -/
theorem not_unitsReplaced (h : isWellFormed receipt.receipt = true)
    (h' : isWellFormed receipt'.receipt = true) :
    ¬ UnitsReplaced receipt receipt' := fun hreplaced =>
  hreplaced.1 (textOfUnits_injOn h h' hreplaced.2.1)

end Messages

/-! ### Two receipts of one message -/

def sampleReceiptOfUnits : ReceiptOfUnits := ⟨[97], .ofNat 12⟩

/-- The first digit of the time stands at the end of the text. -/
def movedReceiptOfUnits : ReceiptOfUnits := ⟨[97, 49], .ofNat 2⟩

theorem sampleReceiptOfUnits_admitted : AdmittedReceipt sampleReceiptOfUnits := by
  unfold AdmittedReceipt
  decide

theorem movedReceiptOfUnits_admitted : AdmittedReceipt movedReceiptOfUnits := by
  unfold AdmittedReceipt
  decide

theorem sample_digitsMoved : DigitsMoved sampleReceiptOfUnits movedReceiptOfUnits :=
  ⟨['1'], List.cons_ne_nil _ _, by decide, by decide⟩

/-- Another text at the same time. -/
def otherReceiptOfUnits : ReceiptOfUnits := ⟨[98], .ofNat 12⟩

theorem otherReceiptOfUnits_admitted : AdmittedReceipt otherReceiptOfUnits := by
  unfold AdmittedReceipt
  decide

/-- The hashes of `a` and `b` at one time bind the two receipts. -/
theorem receipt_hash_binds_on_sample : sampleReceiptOfUnits ≠ otherReceiptOfUnits ∧
    BindsReceipts Sha256.digest sampleReceiptOfUnits otherReceiptOfUnits := by
  refine ⟨by decide, ?_⟩
  refine (receipt_hash_binds_iff sampleReceiptOfUnits_admitted otherReceiptOfUnits_admitted).mpr
    ⟨?_, ?_, ?_⟩
  · rintro ⟨digits, -, htext, -⟩
    have hprefix :
        textOfUnits sampleReceiptOfUnits.receipt <+: textOfUnits otherReceiptOfUnits.receipt :=
      ⟨digits, htext.symm⟩
    exact absurd hprefix (by decide)
  · rintro ⟨digits, -, htext, -⟩
    have hprefix :
        textOfUnits otherReceiptOfUnits.receipt <+: textOfUnits sampleReceiptOfUnits.receipt :=
      ⟨digits, htext.symm⟩
    exact absurd hprefix (by decide)
  · exact not_unitsReplaced rfl rfl

/-- The hash of `a` and `12` is the hash of `a1` and `2`. -/
theorem moved_digit_is_not_bound :
    ¬ ∀ receipt receipt' : ReceiptOfUnits, AdmittedReceipt receipt → AdmittedReceipt receipt' →
      BindsReceipts Sha256.digest receipt receipt' := by
  intro hall
  refine not_bindsReceipts sampleReceiptOfUnits_admitted movedReceiptOfUnits_admitted
    sample_digitsMoved.ne ?_ (hall _ _ sampleReceiptOfUnits_admitted movedReceiptOfUnits_admitted)
  exact (receiptMessage_eq_iff sampleReceiptOfUnits_admitted movedReceiptOfUnits_admitted).mpr
    (.inr (.inl sample_digitsMoved))

end StarkBallot.AwsAdapters.Dynamo
