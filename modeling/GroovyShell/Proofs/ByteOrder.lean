/-
  GroovyShell/Proofs/ByteOrder.lean
  =================================
  **Characters and bytes put texts in the same order.**

  Names are listed in the order of their characters.  Outside the shell texts are
  ordered by their bytes in UTF-8.  The two orders are one: of two different
  characters the smaller one has the smaller first byte, or both begin with the
  same bytes and the next one is smaller.
-/
import GroovyShell.Session.NameMap

namespace GroovyShell

/-- The bytes of a text in UTF-8. -/
def Text.bytes (t : Text) : List UInt8 := t.flatMap String.utf8EncodeChar

@[simp] theorem Text.bytes_nil : Text.bytes [] = [] := rfl

@[simp] theorem Text.bytes_cons (c : Char) (t : Text) :
    Text.bytes (c :: t) = String.utf8EncodeChar c ++ t.bytes := List.flatMap_cons

theorem utf8EncodeChar_ne_nil (c : Char) : String.utf8EncodeChar c ≠ [] := by
  simp only [String.utf8EncodeChar]
  split
  · simp
  · split
    · simp
    · split <;> simp

/-- The first bytes decide unless they are the same. -/
theorem cons_ofNat_lt {m n : Nat} {a b : List UInt8} (hm : m < 256) (hn : n < 256) (hle : m ≤ n)
    (hnext : m = n → a < b) : UInt8.ofNat m :: a < UInt8.ofNat n :: b := by
  rw [List.cons_lt_cons_iff]
  rcases Nat.lt_or_eq_of_le hle with hless | rfl
  · left
    rw [UInt8.lt_iff_toNat_lt, UInt8.toNat_ofNat', UInt8.toNat_ofNat']
    omega
  · exact .inr ⟨rfl, hnext rfl⟩

/-- The bytes of the smaller of two characters come first, whatever stands behind. -/
theorem utf8EncodeChar_append_lt {c d : Char} (h : c < d) (a b : List UInt8) :
    String.utf8EncodeChar c ++ a < String.utf8EncodeChar d ++ b := by
  have hless : c.val.toNat < d.val.toNat := h
  have hbound : d.val.toNat < 0x110000 := by
    have hvalid := d.valid
    simp only [UInt32.isValidChar, Nat.isValidChar] at hvalid
    omega
  simp only [String.utf8EncodeChar]
  generalize c.val.toNat = m at hless
  generalize d.val.toNat = n at hless hbound
  -- one case for each two lengths; of the same length as many bytes are compared
  by_cases hone : n ≤ 127
  · rw [if_pos hone, if_pos (by omega)]
    exact cons_ofNat_lt (by omega) (by omega) (by omega) (by omega)
  rw [if_neg hone]
  by_cases htwo : n ≤ 2047
  · rw [if_pos htwo]
    split
    · exact cons_ofNat_lt (by omega) (by omega) (by omega) (by omega)
    · rw [if_pos (by omega)]
      refine cons_ofNat_lt (by omega) (by omega) (by omega) fun hlead => ?_
      exact cons_ofNat_lt (by omega) (by omega) (by omega) (by omega)
  rw [if_neg htwo]
  by_cases hthree : n ≤ 65535
  · rw [if_pos hthree]
    split
    · exact cons_ofNat_lt (by omega) (by omega) (by omega) (by omega)
    · split
      · exact cons_ofNat_lt (by omega) (by omega) (by omega) (by omega)
      · rw [if_pos (by omega)]
        refine cons_ofNat_lt (by omega) (by omega) (by omega) fun hlead => ?_
        refine cons_ofNat_lt (by omega) (by omega) (by omega) fun hsecond => ?_
        exact cons_ofNat_lt (by omega) (by omega) (by omega) (by omega)
  rw [if_neg hthree]
  split
  · exact cons_ofNat_lt (by omega) (by omega) (by omega) (by omega)
  · split
    · exact cons_ofNat_lt (by omega) (by omega) (by omega) (by omega)
    · split
      · exact cons_ofNat_lt (by omega) (by omega) (by omega) (by omega)
      · refine cons_ofNat_lt (by omega) (by omega) (by omega) fun hlead => ?_
        refine cons_ofNat_lt (by omega) (by omega) (by omega) fun hsecond => ?_
        refine cons_ofNat_lt (by omega) (by omega) (by omega) fun hthird => ?_
        exact cons_ofNat_lt (by omega) (by omega) (by omega) (by omega)

theorem Text.bytes_lt_of_lt {a b : Text} (h : a < b) : a.bytes < b.bytes := by
  induction a generalizing b with
  | nil =>
    cases b with
    | nil => exact absurd h (List.lt_irrefl _)
    | cons d b =>
      rw [bytes_nil, bytes_cons]
      obtain ⟨first, rest, hfirst⟩ := List.exists_cons_of_ne_nil (utf8EncodeChar_ne_nil d)
      rw [hfirst]
      exact List.nil_lt_cons _ _
  | cons c a ih =>
    cases b with
    | nil => exact absurd h (List.not_lt_nil _)
    | cons d b =>
      rw [bytes_cons, bytes_cons]
      rcases List.cons_lt_cons_iff.mp h with hless | ⟨rfl, hless⟩
      · exact utf8EncodeChar_append_lt hless _ _
      · exact List.append_left_lt (ih hless)

/-- **Bytes and characters order texts alike.** -/
theorem Text.bytes_lt_bytes {a b : Text} : a.bytes < b.bytes ↔ a < b := by
  constructor
  · intro h
    by_cases hless : a < b
    · exact hless
    · by_cases hsame : a = b
      · rw [hsame] at h
        exact absurd h (List.lt_irrefl _)
      · have hback := bytes_lt_of_lt (name_lt_of_not_lt hless hsame)
        exact absurd hback (List.lt_asymm h)
  · exact bytes_lt_of_lt

end GroovyShell
