/-
  GroovyShell/Proofs/BytePositions.lean
  =====================================
  **Places in a line, in bytes and in characters.**

  The line editor asks for a byte and is answered in bytes; in between, characters are
  counted.  The two translations are adjoint: the characters that begin before a byte are
  at most so many exactly if the byte is not behind so many characters
  (`charactersBefore_le_iff`).  So they are inverse to each other wherever a character
  ends, and a cursor inside a character is moved behind it.
-/
import GroovyShell.Proofs.Replacement

namespace GroovyShell

/-! ### Bytes in UTF-8 -/

/-- Bytes are counted as they are in strings. -/
theorem Text.byteLength_eq (t : Text) : t.byteLength = t.string.utf8ByteSize := by
  induction t with
  | nil => rfl
  | cons c t ih =>
    have hsplit : Text.string (c :: t) = String.singleton c ++ Text.string t := by
      rw [String.singleton_eq_ofList, Text.string, Text.string, ← String.ofList_append]
      rfl
    rw [Text.byteLength, ih, hsplit, String.utf8ByteSize_append, String.utf8ByteSize_singleton]

/-- `t.BoundaryAt characters byte`: so many characters of a text end at that byte. -/
def Text.BoundaryAt (t : Text) (characters byte : Nat) : Prop :=
  characters ≤ t.length ∧ byte = (Text.string (t.take characters)).utf8ByteSize

theorem Text.boundaryAt_iff {t : Text} {characters byte : Nat} :
    t.BoundaryAt characters byte ↔
      characters ≤ t.length ∧ byte = byteOfCharacter t characters := by
  rw [BoundaryAt, byteOfCharacter, byteLength_eq]

/-- These are the positions at which a string may be cut. -/
theorem Text.isValid_iff {t : Text} {byte : Nat} :
    String.Pos.Raw.IsValid t.string ⟨byte⟩ ↔ ∃ characters, t.BoundaryAt characters byte := by
  rw [string, String.Pos.Raw.isValid_ofList]
  constructor
  · rintro ⟨characters, hbyte⟩
    have htake : t.take (min characters t.length) = t.take characters := by
      rw [List.take_eq_take_iff]
      omega
    refine ⟨min characters t.length, Nat.min_le_right .., ?_⟩
    rw [htake]
    exact hbyte
  · rintro ⟨characters, -, hbyte⟩
    exact ⟨characters, hbyte⟩

/-! ### There and back -/

/-- So many characters begin before a byte exactly if it is not behind them. -/
theorem charactersBefore_le_iff {t : Text} {byte characters : Nat} (h : byte ≤ t.byteLength) :
    charactersBefore t byte ≤ characters ↔ byte ≤ byteOfCharacter t characters := by
  induction t generalizing byte characters with
  | nil =>
    have hzero : byte = 0 := Nat.le_zero.mp h
    simp [charactersBefore, hzero]
  | cons c t ih =>
    by_cases hzero : byte = 0
    · simp [charactersBefore, hzero]
    · rw [charactersBefore, if_neg hzero]
      cases characters with
      | zero => simp [byteOfCharacter, Text.byteLength, hzero]
      | succ n =>
        rw [Text.byteLength] at h
        have hrest := @ih (byte - c.utf8Size) n (by omega)
        simp only [byteOfCharacter, List.take_succ_cons, Text.byteLength] at hrest ⊢
        omega

/-- At a byte where so many characters end, so many begin before it. -/
theorem charactersBefore_boundary {t : Text} {characters byte : Nat}
    (h : t.BoundaryAt characters byte) : charactersBefore t byte = characters := by
  obtain ⟨hle, rfl⟩ := Text.boundaryAt_iff.mp h
  exact charactersBefore_byteOfCharacter hle

/-! ### What the line editor is answered -/

/-- The byte from which suggestions replace the line, at the latest where they stop, if the
    engine names a place. -/
def startByte (line : Text) (stop : Nat) : Option Nat → Nat
  | some place => min (byteOfCharacter line place) stop
  | none => stop

theorem startByte_le (line : Text) (stop : Nat) (place : Option Nat) :
    startByte line stop place ≤ stop := by
  cases place with
  | none => exact Nat.le_refl stop
  | some place => exact Nat.min_le_right ..

/-- A place behind the cursor counts as the cursor. -/
theorem boundaryAt_startByte {line : Text} {k stop : Nat} (h : line.BoundaryAt k stop)
    (place : Option Nat) :
    line.BoundaryAt (place.elim k fun place => min place k) (startByte line stop place) := by
  cases place with
  | none => exact h
  | some place =>
    obtain ⟨hle, rfl⟩ := Text.boundaryAt_iff.mp h
    rw [Text.boundaryAt_iff]
    constructor
    · exact (Nat.min_le_right place k).trans hle
    · rcases Nat.le_total place k with hbefore | hbehind
      · rw [startByte, Option.elim_some, Nat.min_eq_left hbefore,
          Nat.min_eq_left (byteOfCharacter_le hbefore)]
      · rw [startByte, Option.elim_some, Nat.min_eq_right hbehind,
          Nat.min_eq_right (byteOfCharacter_le hbehind)]

theorem suggest_eq (e : Engine) (prior : List Text) (line : Text) (byte : Nat) :
    let stop := min byte line.byteLength
    let offer := e.complete prior line (charactersBefore line stop) 0
    e.suggest prior line byte =
      (if offer.place.isSome then offer.candidates else []).map
        fun value => ⟨value, startByte line stop offer.place, stop, false⟩ := by
  intro stop offer
  rw [Engine.suggest]
  change (match offer.place with
    | some place => _
    | none => _) = _
  cases offer.place <;> rfl

/-- **Places go there and back unchanged.**  All suggestions replace the same bytes, which
    end at the byte asked for, or at the end of the line; they are the candidates of the
    engine in its order.  The engine is asked at the first place between characters that is
    not before that byte.  If that byte is such a place itself, so is the byte at which the
    suggestions begin, with as many characters before it as the engine says, unless it
    names a place behind the cursor. -/
theorem suggestion_positions (e : Engine) (prior : List Text) (line : Text) (byte : Nat) :
    let stop := min byte line.string.utf8ByteSize
    let cursor := charactersBefore line stop
    let offer := e.complete prior line cursor 0
    ∃ start, start ≤ stop ∧
      e.suggest prior line byte =
        (if offer.place.isSome then offer.candidates else []).map
          (fun value => ⟨value, start, stop, false⟩) ∧
      (∀ k, cursor ≤ k ↔ stop ≤ (Text.string (line.take k)).utf8ByteSize) ∧
      ∀ k, line.BoundaryAt k byte → cursor = k ∧ String.Pos.Raw.IsValid line.string ⟨start⟩ ∧
        ∀ place ∈ offer.place, place ≤ k → line.BoundaryAt place start := by
  rw [← line.byteLength_eq]
  intro stop cursor offer
  refine ⟨startByte line stop offer.place, startByte_le .., suggest_eq .., ?_, ?_⟩
  · intro k
    rw [← Text.byteLength_eq]
    exact charactersBefore_le_iff (Nat.min_le_right ..)
  · intro k hk
    have hstop : stop = byte := by
      obtain ⟨-, rfl⟩ := Text.boundaryAt_iff.mp hk
      exact Nat.min_eq_left (byteOfCharacter_le_byteLength line k)
    rw [← hstop] at hk
    have hstart := boundaryAt_startByte hk offer.place
    refine ⟨charactersBefore_boundary hk, Text.isValid_iff.mpr ⟨_, hstart⟩, ?_⟩
    intro place hplace hle
    rwa [Option.mem_def.mp hplace, Option.elim_some, Nat.min_eq_left hle,
      ← Option.mem_def.mp hplace] at hstart

/-- Behind text in which a character takes two bytes, the cursor is at the eighth byte and
    at the seventh character, and a member goes in at the fifth byte, the fourth character. -/
theorem suggestion_positions_accented :
    let e := engineFor .default .new ⟨.dir [], [], none⟩
    let line : Text := "'é'.len".toList
    line.BoundaryAt 7 8 ∧ e.suggest [] line 8 = [⟨"length()".toList, 5, 8, false⟩] ∧
      line.BoundaryAt 4 5 := by
  intro e line
  have hend : line.BoundaryAt 7 8 := Text.boundaryAt_iff.mpr ⟨by decide, by decide⟩
  obtain ⟨start, hle, hsuggest, -, hthere⟩ := suggestion_positions e [] line 8
  obtain ⟨hcursor, hvalid, hplace⟩ := hthere 7 hend
  rw [hcursor] at hsuggest hplace
  have hoffer : e.complete [] line 7 0 = ⟨["length()".toList], some 4, []⟩ := by
    decide +kernel
  rw [hoffer] at hsuggest hplace
  have hstart := hplace 4 rfl (by decide)
  obtain rfl : start = 5 := hstart.2.trans (by decide)
  exact ⟨hend, hsuggest, hstart⟩

end GroovyShell
