import Mathlib.Data.List.Forall2
import Mathlib.Data.Set.Function
import TokenCustody.Authorization
import TokenCustody.Proofs.Digits

/-!
# The signed digest pins the authorization

A digest is three layers deep: texts are hashed to words, the words are concatenated and hashed, and
the hash is hashed once more behind a fixed phrase. Each layer is injective apart from its hash, so
two authorizations with the same digest are equal unless two of the byte strings hashed on the way
collide (`Authorization.collision_or_signedDigest_inj`). Nothing is assumed about the hash itself.

* Words have a fixed width, so a concatenation of words determines them and their number. The two
  kinds of authorization differ in that number, twelve against ten; the tags are not even needed.
* At the same place of two authorizations of one kind stand two texts or two numbers that fit into a
  word (`PayloadField.Alike`), so equal words mean equal fields or a collision of two texts.
-/

namespace TokenCustody

/-- Two different byte strings of a list have the same hash. -/
def HashCollision (messages : List Bytes) : Prop :=
  ∃ m ∈ messages, ∃ m' ∈ messages, m ≠ m' ∧ keccak256 m = keccak256 m'

/-- Without a collision, the hash tells the byte strings of a list apart. -/
theorem injOn_of_not_hashCollision {messages : List Bytes} (h : ¬ HashCollision messages) :
    Set.InjOn keccak256 {m | m ∈ messages} := by
  intro m hm m' hm' heq
  by_contra hne
  exact h ⟨m, hm, m', hm', hne, heq⟩

/-! ### Fields and their words -/

namespace PayloadField

/-- The byte string that is hashed for a field: a text is, a number is not. -/
def hashed? : PayloadField → Option Bytes
  | .text s => some (Bytes.ofText s)
  | .number _ => none

/-- Two fields that may stand at the same place of two authorizations: two texts, or two numbers
that fit into a word. -/
inductive Alike : PayloadField → PayloadField → Prop where
  | texts (s t : String) : Alike (.text s) (.text t)
  | numbers {n m : ℕ} (hn : n < 256 ^ 32) (hm : m < 256 ^ 32) : Alike (.number n) (.number m)

theorem Alike.amounts (a b : Amount) : Alike (.number a.val) (.number b.val) :=
  .numbers (a.val_lt.trans (by decide)) (b.val_lt.trans (by decide))

theorem Alike.numbers64 (n m : UInt64) : Alike (.number n.toNat) (.number m.toNat) :=
  .numbers (n.toNat_lt.trans (by decide)) (m.toNat_lt.trans (by decide))

variable {S : Set Bytes}

/-- Alike fields with the same word are equal, where the hash is injective. -/
theorem Alike.eq_of_word_eq (hS : Set.InjOn keccak256 S) {f g : PayloadField} (h : Alike f g)
    (hf : ∀ m ∈ f.hashed?, m ∈ S) (hg : ∀ m ∈ g.hashed?, m ∈ S) (hword : f.word = g.word) :
    f = g := by
  cases h with
  | texts s t =>
    have hbytes : Bytes.ofText s = Bytes.ofText t := hS (hf _ rfl) (hg _ rfl) hword
    rw [Bytes.ofText_injective hbytes]
  | numbers hn hm =>
    have hdigits := congrArg Vector.toList hword
    simp only [word, Word.toList_ofNat] at hdigits
    rw [(Bytes.bigEndian_inj hn hm).mp hdigits]

/-- Characters move from one text to the next, and all else stays. -/
def MovesText (l l' : List PayloadField) : Prop :=
  ∃ front s c t back, c ≠ "" ∧ l = front ++ .text (s ++ c) :: .text t :: back ∧
    l' = front ++ .text s :: .text (c ++ t) :: back

/-- A part of a number moves to the next number, and all else stays. -/
def MovesNumber (l l' : List PayloadField) : Prop :=
  ∃ front n d m back, d ≠ 0 ∧ l = front ++ .number (n + d) :: .number m :: back ∧
    l' = front ++ .number n :: .number (m + d) :: back

theorem MovesText.ne {l l' : List PayloadField} (h : MovesText l l') : l ≠ l' := by
  obtain ⟨front, s, c, t, back, hc, rfl, rfl⟩ := h
  intro heq
  have htext := List.append_cancel_left heq
  simp only [List.cons.injEq, text.injEq] at htext
  exact hc (String.append_right_inj s |>.mp (htext.1.trans (String.append_empty (s := s)).symm))

theorem MovesNumber.ne {l l' : List PayloadField} (h : MovesNumber l l') : l ≠ l' := by
  obtain ⟨front, n, d, m, back, hd, rfl, rfl⟩ := h
  intro heq
  have hnumber := List.append_cancel_left heq
  simp only [List.cons.injEq, number.injEq] at hnumber
  omega

/-- The concatenated words of a sequence of fields. -/
def words (fields : List PayloadField) : Bytes :=
  fields.flatMap fun field => field.word.toList

theorem length_words (fields : List PayloadField) : (words fields).length = 32 * fields.length := by
  induction fields with
  | nil => rfl
  | cons f fields ih =>
    rw [words, List.flatMap_cons, List.length_append, Vector.length_toList, ← words, ih,
      List.length_cons]
    ring

/-- The concatenation of the words determines alike fields, where the hash is injective. -/
theorem eq_of_words_eq (hS : Set.InjOn keccak256 S) {l l' : List PayloadField}
    (h : List.Forall₂ Alike l l') (hl : ∀ f ∈ l, ∀ m ∈ f.hashed?, m ∈ S)
    (hl' : ∀ f ∈ l', ∀ m ∈ f.hashed?, m ∈ S) (hwords : words l = words l') : l = l' := by
  induction h with
  | nil => rfl
  | @cons f g l l' hfg _ ih =>
    rw [List.forall_mem_cons] at hl hl'
    rw [words, words, List.flatMap_cons, List.flatMap_cons] at hwords
    -- the first words have the same width, so the concatenations split at the same place
    obtain ⟨hfirst, hrest⟩ := List.append_inj hwords (by simp)
    rw [hfg.eq_of_word_eq hS hl.1 hl'.1 (Vector.toList_inj.mp hfirst), ih hl.2 hl'.2 hrest]

end PayloadField

/-! ### Authorizations of either kind -/

/-- What the trusted signer signs. -/
inductive Authorization where
  | deposit (a : DepositAuthorization)
  | release (a : ReleaseAuthorization)
  deriving DecidableEq

namespace Authorization

open PayloadField (words Alike)

/-- The fields in signed order, the tag in front. -/
def fields : Authorization → List PayloadField
  | .deposit a => a.fields
  | .release a => a.fields

/-- The digest that is signed. -/
def signedDigest : Authorization → Word
  | .deposit a => a.signedDigest
  | .release a => a.signedDigest

/-- What stands behind the digest: the phrase and the hash of the words. -/
def preimage (a : Authorization) : Bytes :=
  Word.personalPhrase ++ (keccak256 (words a.fields)).toList

/-- All byte strings that are hashed on the way to the digest: the tag and the other texts, the
concatenated words, and the hash of these behind the phrase. -/
def hashed (a : Authorization) : List Bytes :=
  a.fields.filterMap PayloadField.hashed? ++ [words a.fields, a.preimage]

theorem signedDigest_eq (a : Authorization) : a.signedDigest = keccak256 a.preimage := by
  cases a <;> rfl

/-- Authorizations of one kind have alike fields. -/
theorem alike_fields {a b : Authorization} (h : a.fields.length = b.fields.length) :
    List.Forall₂ Alike a.fields b.fields := by
  cases a <;> cases b
  case deposit.deposit a b =>
    simp [fields, DepositAuthorization.fields, Alike.texts, Alike.amounts, Alike.numbers64]
  case release.release a b =>
    simp [fields, ReleaseAuthorization.fields, Alike.texts, Alike.amounts, Alike.numbers64]
  all_goals cases h

/-- The fields determine the authorization. -/
theorem fields_injective : Function.Injective fields := by
  intro a b h
  have hlength := congrArg List.length h
  cases a <;> cases b
  case deposit.deposit a b =>
    obtain ⟨_, _, _, _, _, ⟨⟩⟩ := a
    obtain ⟨_, _, _, _, _, ⟨⟩⟩ := b
    simp only [fields, DepositAuthorization.fields, List.cons.injEq, PayloadField.text.injEq,
      PayloadField.number.injEq, UInt64.toNat_inj, true_and, and_true] at h
    obtain ⟨rfl, rfl, rfl, rfl, hamount, hgas, rfl, rfl, rfl, rfl, rfl⟩ := h
    rw [Amount.ext hamount, Amount.ext hgas]
  case release.release a b =>
    obtain ⟨_, _, ⟨⟩⟩ := a
    obtain ⟨_, _, ⟨⟩⟩ := b
    simp only [fields, ReleaseAuthorization.fields, List.cons.injEq, PayloadField.text.injEq,
      PayloadField.number.injEq, UInt64.toNat_inj, true_and, and_true] at h
    obtain ⟨rfl, rfl, rfl, rfl, hamount, hcommission, rfl, rfl, rfl⟩ := h
    rw [Amount.ext hamount, Amount.ext hcommission]
  all_goals cases hlength

theorem mem_hashed_of_mem_fields {a : Authorization} {f : PayloadField} (hf : f ∈ a.fields)
    {m : Bytes} (hm : m ∈ f.hashed?) : m ∈ a.hashed :=
  List.mem_append_left _ (List.mem_filterMap.mpr ⟨f, hf, hm⟩)

/-- Authorizations with the same digest are equal, where the hash is injective on all that is
hashed on the way. The layers are taken off from the outside. -/
theorem eq_of_signedDigest_eq {S : Set Bytes} (hS : Set.InjOn keccak256 S) {a b : Authorization}
    (ha : ∀ m ∈ a.hashed, m ∈ S) (hb : ∀ m ∈ b.hashed, m ∈ S)
    (h : a.signedDigest = b.signedDigest) : a = b := by
  rw [signedDigest_eq, signedDigest_eq] at h
  have hpreimage : a.preimage = b.preimage :=
    hS (ha _ (by simp [hashed])) (hb _ (by simp [hashed])) h
  have hpayload : keccak256 (words a.fields) = keccak256 (words b.fields) :=
    Vector.toList_inj.mp (List.append_cancel_left hpreimage)
  have hwords : words a.fields = words b.fields :=
    hS (ha _ (by simp [hashed])) (hb _ (by simp [hashed])) hpayload
  have hlength : a.fields.length = b.fields.length := by
    have := congrArg List.length hwords
    rw [PayloadField.length_words, PayloadField.length_words] at this
    omega
  refine fields_injective (PayloadField.eq_of_words_eq hS (alike_fields hlength) ?_ ?_ hwords)
  · exact fun f hf m hm => ha m (mem_hashed_of_mem_fields hf hm)
  · exact fun f hf m hm => hb m (mem_hashed_of_mem_fields hf hm)

/-- **The digest pins the whole authorization**, unless two of the byte strings hashed for the two
digests collide: authorizations with the same digest are of one kind and agree in every field. In
particular a deposit and a release never share a digest, and neither characters that move to the
next text nor a part of an amount that moves to the next number go unnoticed. -/
theorem collision_or_signedDigest_inj (a b : Authorization) :
    HashCollision (a.hashed ++ b.hashed) ∨
      (a.signedDigest = b.signedDigest ↔ a = b) ∧
      (∀ x y, a = .deposit x → b = .release y → a.signedDigest ≠ b.signedDigest) ∧
      (PayloadField.MovesText a.fields b.fields → a.signedDigest ≠ b.signedDigest) ∧
      (PayloadField.MovesNumber a.fields b.fields → a.signedDigest ≠ b.signedDigest) := by
  refine or_iff_not_imp_left.mpr fun hcollision => ?_
  have hinj : a.signedDigest = b.signedDigest → a = b :=
    eq_of_signedDigest_eq (injOn_of_not_hashCollision hcollision)
      (fun _ hm => List.mem_append_left _ hm) fun _ hm => List.mem_append_right _ hm
  refine ⟨⟨hinj, fun h => h ▸ rfl⟩, ?_, ?_, ?_⟩
  · rintro x y rfl rfl h
    cases hinj h
  · exact fun hmoves h => hmoves.ne (congrArg fields (hinj h))
  · exact fun hmoves h => hmoves.ne (congrArg fields (hinj h))

end Authorization

end TokenCustody
