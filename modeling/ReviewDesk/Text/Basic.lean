/-!
# Texts

A text is a sequence of code points. It can hold more than a string: half of a surrogate pair is a code point
that stands for no character, and the text formats that arrive from outside can write one. Texts are ordered
by their code points, a text before its continuations; main statements: `le_total`, `le_trans`, `le_antisymm`.
-/
namespace ReviewDesk

/-- A code point: a character, or one of the 2048 halves of surrogate pairs, which are numbered from `0xD800`
on. -/
inductive CodePoint where
  | char (c : Char)
  | half (offset : Fin 2048)
  deriving Repr, DecidableEq

namespace CodePoint

/-- The number of a code point. -/
def value : CodePoint → Nat
  | char c => c.toNat
  | half o => 0xD800 + o

/-- The code point with a number up to `0x10FFFF`. -/
def ofNat (n : Nat) : CodePoint :=
  if h : n.isValidChar then .char (Char.ofNatAux n h) else .half (Fin.ofNat 2048 (n - 0xD800))

/-- The character; nothing for half of a pair. -/
def char? : CodePoint → Option Char
  | char c => some c
  | half _ => none

theorem value_injective {a b : CodePoint} (h : a.value = b.value) : a = b := by
  have valid (c : Char) : c.toNat < 0xD800 ∨ 0xDFFF < c.toNat := by
    rcases c.valid with h | h
    · exact .inl h
    · exact .inr h.1
  cases a with
  | char c =>
    cases b with
    | char d => exact congrArg _ (Char.ext (UInt32.toNat_inj.1 h))
    | half p =>
      have := valid c
      have := p.isLt
      simp only [value] at h
      omega
  | half o =>
    cases b with
    | char d =>
      have := valid d
      have := o.isLt
      simp only [value] at h
      omega
    | half p => exact congrArg _ (Fin.ext (by simp only [value] at h; omega))

end CodePoint

/-- A sequence of code points. -/
structure Text where
  points : List CodePoint
  deriving Repr, DecidableEq, Inhabited

namespace Text

def ofChars (cs : List Char) : Text := ⟨cs.map .char⟩

def ofString (s : String) : Text := ofChars s.toList

instance : Coe String Text := ⟨ofString⟩

def append (a b : Text) : Text := ⟨a.points ++ b.points⟩

instance : Append Text := ⟨append⟩

def isEmpty (t : Text) : Bool := t.points.isEmpty

/-- Texts in a row with something between them. -/
def joined (between : Text) : List Text → Text
  | [] => ofString ""
  | [t] => t
  | t :: ts => t ++ between ++ joined between ts

/-- The characters of a text, with the replacement character in the place of a half. -/
def chars (t : Text) : List Char := t.points.map fun p => p.char?.getD '\uFFFD'

/-- The string that consists of the same characters; none if the text holds a half. -/
def toString? (t : Text) : Option String := (t.points.mapM CodePoint.char?).map String.ofList

/-- Whether code points come no later than others: at the first difference the smaller one decides. -/
def comesFirst : List CodePoint → List CodePoint → Bool
  | [], _ => true
  | _ :: _, [] => false
  | p :: ps, q :: qs => p.value < q.value || (p.value == q.value && comesFirst ps qs)

/-- The order of texts. -/
def le (a b : Text) : Bool := comesFirst a.points b.points

theorem comesFirst_total : ∀ ps qs : List CodePoint, (comesFirst ps qs || comesFirst qs ps) = true
  | [], _ => by simp [comesFirst]
  | _ :: _, [] => by simp [comesFirst]
  | p :: ps, q :: qs => by
    have ih := comesFirst_total ps qs
    simp only [comesFirst, Bool.or_eq_true, Bool.and_eq_true, decide_eq_true_eq, beq_iff_eq] at ih ⊢
    rcases Nat.lt_trichotomy p.value q.value with h | h | h
    · exact .inl (.inl h)
    · rcases ih with ih | ih
      · exact .inl (.inr ⟨h, ih⟩)
      · exact .inr (.inr ⟨h.symm, ih⟩)
    · exact .inr (.inl h)

theorem comesFirst_trans : ∀ {ps qs rs : List CodePoint}, comesFirst ps qs = true →
    comesFirst qs rs = true → comesFirst ps rs = true
  | [], _, _, _, _ => by simp [comesFirst]
  | _ :: _, [], _, h, _ => by simp [comesFirst] at h
  | _ :: _, _ :: _, [], _, h => by simp [comesFirst] at h
  | p :: ps, q :: qs, r :: rs, h, h' => by
    have ih := @comesFirst_trans ps qs rs
    simp only [comesFirst, Bool.or_eq_true, Bool.and_eq_true, decide_eq_true_eq, beq_iff_eq] at h h' ⊢
    rcases h with h | ⟨h, t⟩ <;> rcases h' with h' | ⟨h', t'⟩
    · exact .inl (by omega)
    · exact .inl (by omega)
    · exact .inl (by omega)
    · exact .inr ⟨h.trans h', ih t t'⟩

theorem comesFirst_antisymm : ∀ {ps qs : List CodePoint}, comesFirst ps qs = true →
    comesFirst qs ps = true → ps = qs
  | [], [], _, _ => rfl
  | [], _ :: _, _, h => by simp [comesFirst] at h
  | _ :: _, [], h, _ => by simp [comesFirst] at h
  | p :: ps, q :: qs, h, h' => by
    have ih := @comesFirst_antisymm ps qs
    simp only [comesFirst, Bool.or_eq_true, Bool.and_eq_true, decide_eq_true_eq, beq_iff_eq] at h h'
    rcases h with h | ⟨h, t⟩ <;> rcases h' with h' | ⟨h', t'⟩
    · omega
    · omega
    · omega
    · rw [CodePoint.value_injective h, ih t t']

theorem le_total (a b : Text) : (a.le b || b.le a) = true := comesFirst_total a.points b.points

theorem le_trans {a b c : Text} (h : a.le b = true) (h' : b.le c = true) : a.le c = true :=
  comesFirst_trans h h'

theorem le_antisymm {a b : Text} (h : a.le b = true) (h' : b.le a = true) : a = b := by
  cases a
  cases b
  exact congrArg _ (comesFirst_antisymm h h')

end Text
end ReviewDesk
