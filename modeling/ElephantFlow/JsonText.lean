/-
# JSON text

The grammar of JSON over bytes, as far as a printer of strings, counts, lists and records needs it:
a number here has no sign, fraction or exponent.  The interior of a string literal has its own
grammar (`Interior`) and its meaning (`unescape`); bytes from 0x80 on stand for themselves.  White
space is part of `element`, as in the railroad diagrams of the format.
-/
import ElephantFlow.Decimal

namespace EFG.Json

open ByteCodec

/-! ## String literals -/

/-- The value of a hexadecimal digit. -/
def hexValue (c : UInt8) : Option ℕ :=
  if IsDigit c then some (c.toNat - 48)
  else if 97 ≤ c ∧ c ≤ 102 then some (c.toNat - 87)
  else if 65 ≤ c ∧ c ≤ 70 then some (c.toNat - 55)
  else none

/-- What `\c` stands for. -/
def shortEscape (c : UInt8) : Option UInt8 :=
  [(34, 34), (92, 92), (47, 47), (98, 8), (102, 12), (110, 10), (114, 13), (116, 9)].lookup c

/-- What an escape with four hexadecimal digits stands for: the character of that code in UTF-8.
Half of a surrogate pair is no character. -/
def unicodeEscape (a b c d : UInt8) : Option Bytes := do
  let code := (((← hexValue a) * 16 + (← hexValue b)) * 16 + (← hexValue c)) * 16 + (← hexValue d)
  if code.isValidChar then some (String.utf8EncodeChar (Char.ofNat code)) else none

/-- The byte stands for itself: it is no control byte, quote or backslash. -/
def Plain (c : UInt8) : Prop := 32 ≤ c ∧ c ≠ 34 ∧ c ≠ 92

instance : DecidablePred Plain := fun c => inferInstanceAs (Decidable (32 ≤ c ∧ c ≠ 34 ∧ c ≠ 92))

/-- What stands between the quotes of a literal: no raw control byte, and no quote or backslash that
is not part of an escape. -/
inductive Interior : Bytes → Prop
  | nil : Interior []
  | plain {c : UInt8} {bs : Bytes} (h : Plain c) (rest : Interior bs) : Interior (c :: bs)
  | short {c x : UInt8} {bs : Bytes} (h : shortEscape c = some x) (rest : Interior bs) :
      Interior (92 :: c :: bs)
  | unicode {a b c d : UInt8} {xs bs : Bytes} (h : unicodeEscape a b c d = some xs)
      (rest : Interior bs) : Interior (92 :: 117 :: a :: b :: c :: d :: bs)

/-- The text that the interior of a literal stands for. -/
def unescape : Bytes → Option Bytes
  | [] => some []
  | 92 :: 117 :: a :: b :: c :: d :: rest =>
    (unicodeEscape a b c d).bind fun xs => (unescape rest).map (xs ++ ·)
  | 92 :: c :: rest => (shortEscape c).bind fun x => (unescape rest).map (x :: ·)
  | c :: rest => if Plain c then (unescape rest).map (c :: ·) else none

/-- A string literal. -/
def IsString (bs : Bytes) : Prop := ∃ interior, bs = 34 :: interior ++ [34] ∧ Interior interior

theorem Interior.append {bs bs' : Bytes} (h : Interior bs) (h' : Interior bs') :
    Interior (bs ++ bs') := by
  induction h with
  | nil => exact h'
  | plain hc _ ih => exact .plain hc ih
  | short hc _ ih => exact .short hc ih
  | unicode hc _ ih => exact .unicode hc ih

theorem interior_of_plain {bs : Bytes} (h : bs.all Plain) : Interior bs := by
  induction bs with
  | nil => exact .nil
  | cons c bs ih =>
    rw [List.all_cons, Bool.and_eq_true, decide_eq_true_eq] at h
    exact .plain h.1 (ih h.2)

theorem unescape_cons_of_plain {c : UInt8} (h : Plain c) (rest : Bytes) :
    unescape (c :: rest) = (unescape rest).map (c :: ·) := by
  have hc : c ≠ 92 := h.2.2
  rw [unescape, if_pos h]
  · intro _ _ _ _ _ hc' _
    exact hc hc'
  · intro _ _ hc' _
    exact hc hc'

/-! ## Documents -/

/-- The bytes of a text in ASCII. -/
def literal (s : String) : Bytes := s.toList.map fun c => UInt8.ofNat c.toNat

/-- White space. -/
def Blank (bs : Bytes) : Prop := bs.all [32, 9, 10, 13].contains

instance : DecidablePred Blank := fun bs => inferInstanceAs (Decidable (bs.all _ = true))

theorem blank_nil : Blank [] := rfl

/-- A number without sign, fraction and exponent: no zero stands in front of other digits. -/
def IsNumber (bs : Bytes) : Prop :=
  bs ≠ [] ∧ (∀ c ∈ bs, IsDigit c) ∧ (bs.head? = some 48 → bs = [48])

/-- The symbols of the grammar; `list s` is one or more `s` with commas between them. -/
inductive Symbol where
  | element
  | member
  | list (s : Symbol)

/-- The byte string is derived from the symbol; a document is an `element`. -/
inductive Derives : Symbol → Bytes → Prop
  | bool (b : Bool) : Derives .element (literal (if b then "true" else "false"))
  | null : Derives .element (literal "null")
  | number {bs : Bytes} (h : IsNumber bs) : Derives .element bs
  | string {bs : Bytes} (h : IsString bs) : Derives .element bs
  | emptyArray {ws : Bytes} (h : Blank ws) : Derives .element (91 :: ws ++ [93])
  | array {bs : Bytes} (h : Derives (.list .element) bs) : Derives .element (91 :: bs ++ [93])
  | emptyObject {ws : Bytes} (h : Blank ws) : Derives .element (123 :: ws ++ [125])
  | object {bs : Bytes} (h : Derives (.list .member) bs) : Derives .element (123 :: bs ++ [125])
  | padded {before bs after : Bytes} (hb : Blank before) (h : Derives .element bs)
      (ha : Blank after) : Derives .element (before ++ bs ++ after)
  | member {before name after bs : Bytes} (hb : Blank before) (hname : IsString name)
      (ha : Blank after) (h : Derives .element bs) :
      Derives .member (before ++ name ++ after ++ 58 :: bs)
  | single {s : Symbol} {bs : Bytes} (h : Derives s bs) : Derives (.list s) bs
  | cons {s : Symbol} {bs bs' : Bytes} (h : Derives s bs) (h' : Derives (.list s) bs') :
      Derives (.list s) (bs ++ 44 :: bs')

/-- Texts with commas between them and white space behind the last are a list, if each is of the
symbol with any white space behind it. -/
theorem derives_intercalate {s : Symbol} {items : List Bytes} {ws : Bytes} (hne : items ≠ [])
    (hws : Blank ws) (h : ∀ item ∈ items, ∀ ws, Blank ws → Derives s (item ++ ws)) :
    Derives (.list s) (List.intercalate [44] items ++ ws) := by
  induction items with
  | nil => exact absurd rfl hne
  | cons item rest ih =>
    rw [List.forall_mem_cons] at h
    rcases rest with _ | ⟨next, rest⟩
    · rw [List.intercalate_singleton]
      exact .single (h.1 ws hws)
    · rw [List.intercalate_cons_cons, List.append_assoc, List.append_assoc]
      have hitem : Derives s item := List.append_nil item ▸ h.1 [] blank_nil
      exact .cons hitem (ih (List.cons_ne_nil _ _) h.2)

end EFG.Json
