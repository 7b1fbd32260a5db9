/-!
# Texts

A text is a sequence of code points. Nearly all of them are characters. The others are surrogates,
which encode a character in pairs; JSON can spell one that stands alone, so a text can hold it.
-/

set_option autoImplicit false

namespace TemplateJsx

inductive CodePoint where
  | char (c : Char)
  /-- A surrogate, counted from the first one, U+D800. -/
  | surrogate (index : Fin 0x800)
deriving DecidableEq, Repr

namespace CodePoint

instance : Coe Char CodePoint := ⟨char⟩

def toNat : CodePoint → Nat
  | .char c => c.toNat
  | .surrogate index => 0xD800 + index.val

def ofNat (n : Nat) : CodePoint :=
  if within : 0xD800 ≤ n ∧ n < 0xE000 then .surrogate ⟨n - 0xD800, by omega⟩
  else .char (Char.ofNat n)

@[simp] theorem toNat_char (c : Char) : (char c).toNat = c.toNat := rfl

theorem char_bounds (c : Char) : c.toNat < 0xD800 ∨ (0xDFFF < c.toNat ∧ c.toNat < 0x110000) := by
  have valid := c.valid
  simpa [UInt32.isValidChar, Nat.isValidChar] using valid

theorem toNat_lt (c : CodePoint) : c.toNat < 0x110000 := by
  cases c with
  | char c =>
      have bounds := char_bounds c
      rw [toNat_char]
      omega
  | surrogate index =>
      rw [toNat]
      omega

theorem ofNat_toNat (c : CodePoint) : ofNat c.toNat = c := by
  cases c with
  | char c =>
      have bounds := char_bounds c
      rw [ofNat, toNat_char, dif_neg (by omega), Char.ofNat_toNat]
  | surrogate index =>
      rw [ofNat, toNat, dif_pos (by omega)]
      exact congrArg surrogate (Fin.ext (Nat.add_sub_cancel_left ..))

theorem toNat_inj {a b : CodePoint} : a.toNat = b.toNat ↔ a = b := by
  constructor
  · intro same
    rw [← ofNat_toNat a, same, ofNat_toNat]
  · rintro rfl
    rfl

end CodePoint

structure Text where
  ofList ::
  toList : List CodePoint
deriving DecidableEq, Repr

namespace Text

def ofString (s : String) : Text := ofList (s.toList.map CodePoint.char)

instance : Coe String Text := ⟨ofString⟩

instance : Append Text := ⟨fun s t => ofList (s.toList ++ t.toList)⟩

instance : Inhabited Text := ⟨""⟩

def isEmpty (t : Text) : Bool := t.toList.isEmpty

def length (t : Text) : Nat := t.toList.length

def join : List Text → Text
  | [] => ""
  | t :: texts => t ++ join texts

/-- The texts one after the other, with the separator between them. -/
def intercalate (separator : Text) : List Text → Text
  | [] => ""
  | [t] => t
  | t :: next :: texts => t ++ separator ++ intercalate separator (next :: texts)

variable {s t : Text}

theorem toList_inj : s.toList = t.toList ↔ s = t := by
  cases s
  cases t
  simp

@[simp] theorem ofList_toList (t : Text) : ofList t.toList = t := rfl

@[simp] theorem toList_ofList (cs : List CodePoint) : (ofList cs).toList = cs := rfl

theorem ofList_inj {cs ds : List CodePoint} : ofList cs = ofList ds ↔ cs = ds := by
  rw [ofList.injEq]

@[simp] theorem toList_ofString (s : String) :
    (ofString s).toList = s.toList.map CodePoint.char := rfl

@[simp] theorem toList_append (s t : Text) : (s ++ t).toList = s.toList ++ t.toList := rfl

theorem ofList_append (cs ds : List CodePoint) : ofList (cs ++ ds) = ofList cs ++ ofList ds := rfl

@[simp] theorem toList_empty : (ofString "").toList = [] := rfl

@[simp] theorem toList_eq_nil_iff : t.toList = [] ↔ t = "" := toList_inj (t := "")

@[simp] theorem append_empty : t ++ ofString "" = t := by
  rw [← toList_inj, toList_append, toList_empty, List.append_nil]

@[simp] theorem empty_append : ofString "" ++ t = t := rfl

theorem append_assoc {r : Text} : r ++ s ++ t = r ++ (s ++ t) := by
  rw [← toList_inj]
  simp

@[simp] theorem append_eq_empty_iff : s ++ t = "" ↔ s = "" ∧ t = "" := by
  simp [← toList_eq_nil_iff]

theorem ofString_append (s t : String) : ofString (s ++ t) = ofString s ++ ofString t := by
  rw [← toList_inj]
  simp

@[simp] theorem ofString_inj {s t : String} : ofString s = ofString t ↔ s = t := by
  rw [← toList_inj, toList_ofString, toList_ofString,
    List.map_inj_right fun _ _ => CodePoint.char.inj, String.toList_inj]

@[simp] theorem isEmpty_iff : t.isEmpty = true ↔ t = "" := by
  rw [isEmpty, List.isEmpty_iff, toList_eq_nil_iff]

theorem length_toList : t.toList.length = t.length := rfl

@[simp] theorem length_append (s t : Text) : (s ++ t).length = s.length + t.length :=
  List.length_append

@[simp] theorem length_ofList (cs : List CodePoint) : (ofList cs).length = cs.length := rfl

@[simp] theorem join_nil : join [] = "" := rfl

@[simp] theorem join_cons (t : Text) (texts : List Text) :
    join (t :: texts) = t ++ join texts := rfl

@[simp] theorem intercalate_nil {separator : Text} : intercalate separator [] = "" := rfl

@[simp] theorem intercalate_singleton {separator : Text} : intercalate separator [t] = t := rfl

theorem intercalate_cons_cons {separator next : Text} {texts : List Text} :
    intercalate separator (t :: next :: texts) =
      t ++ separator ++ intercalate separator (next :: texts) := rfl

end Text

end TemplateJsx
