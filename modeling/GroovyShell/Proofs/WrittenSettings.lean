/-
  GroovyShell/Proofs/WrittenSettings.lean
  =======================================
  **Settings are read back as they were written.**

  A document is read line by line.  Each line that is written adds one entry to the
  table its section has opened, and so the reader ends with a table that holds every
  setting under its name.
-/
import GroovyShell.Config.Load
import GroovyShell.Proofs.WrittenStrings
import Mathlib

namespace GroovyShell

/-! ### Values -/

/-- `Denotes text value`: at the end of a line the text is read as the value. -/
structure Denotes (text : Text) (value : TomlValue) : Prop where
  solid : ∀ c ∈ text.head?, isSpace c = false
  read : ∀ rest, readValue nestingLimit (text ++ '\n' :: rest) = some (value, '\n' :: rest)

theorem readValue_scalar {c : Char} (hsquare : c ≠ '[') (hbrace : c ≠ '\x7b') (t : Text) :
    readValue nestingLimit (c :: t) = readScalar (c :: t) := by
  have hlimit : nestingLimit = 79 + 1 := rfl
  rw [hlimit, readValue]
  · intro t' h
    exact hsquare (List.cons.inj h).1
  · intro t' h
    exact hbrace (List.cons.inj h).1

theorem writeString_quoted (t : Text) :
    ∃ quote more, writeString t = quote :: more ∧ (quote = '"' ∨ quote = '\'') := by
  unfold writeString writeStringIn
  cases chosenNotation t with
  | basic => exact ⟨'"', _, rfl, .inl rfl⟩
  | literal => exact ⟨'\'', _, rfl, .inr rfl⟩
  | basicBlock => exact ⟨'"', _, rfl, .inl rfl⟩
  | literalBlock => exact ⟨'\'', _, rfl, .inr rfl⟩

theorem denotes_string (t : Text) : Denotes (writeString t) (.string t) := by
  obtain ⟨quote, more, hwritten, hquote⟩ := writeString_quoted t
  have hother : quote ≠ '[' ∧ quote ≠ '\x7b' ∧ isSpace quote = false := by
    rcases hquote with rfl | rfl <;> decide
  constructor
  · rw [hwritten]
    intro c hc
    obtain rfl : quote = c := by simpa using hc
    exact hother.2.2
  · intro rest
    have hread : readString (writeString t ++ '\n' :: rest) = some (t, '\n' :: rest) := by
      apply readString_writeString
      intro c hc
      obtain rfl : '\n' = c := by simpa using hc
      decide
    rw [hwritten, List.cons_append] at hread ⊢
    rw [readValue_scalar hother.1 hother.2.1, readScalar, if_pos hquote, hread]
    rfl

/-- A word is read as a whole if it is no date. -/
theorem wordLength_word {word : Text} (hword : ∀ c ∈ word, isWordChar c = true)
    (hdate : dropDate word ≠ some []) (rest : Text) :
    wordLength (word ++ '\n' :: rest) = word.length := by
  have hrun : Text.run isWordChar (word ++ '\n' :: rest) = word.length := by
    have hnewline : isWordChar '\n' = false := by decide
    rw [Text.run, List.takeWhile_append_of_pos hword,
      List.takeWhile_cons_of_neg (by simp [hnewline]), List.append_nil]
  rw [wordLength]
  simp only [hrun, List.take_left, if_neg hdate]

theorem denotes_word {word : Text} {value : TomlValue} (hsome : word ≠ [])
    (hword : ∀ c ∈ word, isWordChar c = true) (hdate : dropDate word ≠ some [])
    (hread : readWord word = some value) : Denotes word value := by
  obtain ⟨c, more, rfl⟩ := List.exists_cons_of_ne_nil hsome
  have hfirst : isWordChar c = true := hword c List.mem_cons_self
  have hother (d : Char) (hd : isWordChar d = false) : c ≠ d :=
    ne_of_apply_ne isWordChar (by simp [hfirst, hd])
  constructor
  · intro d hd
    obtain rfl : c = d := by simpa using hd
    simp [isSpace, hother ' ' (by decide), hother '\t' (by decide)]
  · intro rest
    have hlength := wordLength_word hword hdate rest
    have hquote : ¬ (c = '"' ∨ c = '\'') := by
      simp [hother '"' (by decide), hother '\'' (by decide)]
    rw [List.cons_append] at hlength ⊢
    rw [readValue_scalar (hother '[' (by decide)) (hother '\x7b' (by decide)), readScalar,
      if_neg hquote]
    simp only [hlength]
    rw [← List.cons_append, List.take_left, List.drop_left, hread]
    rfl

theorem denotes_switch (b : Bool) : Denotes (writeSwitch b) (.boolean b) := by
  cases b <;>
    exact denotes_word (by decide) (List.all_eq_true.mp (by decide)) (by decide +kernel) rfl

/-! ### Numbers -/

section Digits

variable {digits : Text} (hdigits : ∀ c ∈ digits, c.isDigit = true)

include hdigits

/-- What is no digit stands in no number. -/
theorem ne_of_isDigit {c d : Char} (hc : c ∈ digits) (hd : d.isDigit = false) : c ≠ d := by
  rintro rfl
  simp [hdigits c hc] at hd

theorem plainDigits_digits (hsome : digits ≠ []) :
    plainDigits Char.isDigit digits = some digits := by
  induction digits with
  | nil => exact absurd rfl hsome
  | cons c more ih =>
    have hc : c.isDigit = true := hdigits c List.mem_cons_self
    have hmore : ∀ d ∈ more, d.isDigit = true := fun d hd => hdigits d (List.mem_cons_of_mem c hd)
    cases more with
    | nil => simp [plainDigits, hc]
    | cons d more =>
      have hd : d ≠ '_' := ne_of_isDigit hmore List.mem_cons_self (by decide)
      rw [plainDigits, if_pos hc, ih hmore (by simp)]
      · rfl
      · intro he
        simp at he
      · intro _ _ he
        exact hd (List.cons.inj he).1

theorem dropSign_digits : dropSign digits = (false, digits) := by
  cases digits with
  | nil => rfl
  | cons c more =>
    have hminus : c ≠ '-' := ne_of_isDigit hdigits List.mem_cons_self (by decide)
    have hplus : c ≠ '+' := ne_of_isDigit hdigits List.mem_cons_self (by decide)
    simp [dropSign, hminus, hplus]

theorem numberIn_digits : numberIn 10 digits = Nat.ofDigitChars 10 digits 0 := by
  rw [numberIn, Nat.ofDigitChars]
  apply List.foldl_ext
  intro n c hc
  rw [hexDigitValue, if_pos (hdigits c hc)]

/-- Digits without a needless zero are a number in the decimal system. -/
theorem readInteger_digits (hsome : digits ≠ [])
    (hzero : digits.length = 1 ∨ digits.head? ≠ some '0') :
    readInteger digits = some (Nat.ofDigitChars 10 digits 0 : Int) := by
  have hplain : decimalDigits digits = some digits := by
    rw [decimalDigits, plainDigits_digits hdigits hsome, Option.filter_some, if_pos]
    simpa using hzero
  have hbase (c : Char) (hc : c.isDigit = false) (t : Text) : digits ≠ '0' :: c :: t := by
    rintro rfl
    exact ne_of_isDigit hdigits (by simp) hc rfl
  rw [readInteger, dropSign_digits hdigits]
  · simp [hplain, numberIn_digits hdigits]
  · exact hbase 'x' (by decide)
  · exact hbase 'o' (by decide)
  · exact hbase 'b' (by decide)

/-- Digits alone are no date. -/
theorem dropDate_digits : dropDate digits = none := by
  unfold dropDate fixedNumber
  dsimp only
  split
  · have hdash : dropChar '-' (digits.drop 4) = none := by
      cases hdrop : digits.drop 4 with
      | nil => rfl
      | cons c more =>
        have hc : c ∈ digits := List.mem_of_mem_drop (hdrop ▸ List.mem_cons_self)
        exact if_neg (ne_of_isDigit hdigits hc (by decide))
    simp [hdash]
  · rfl

end Digits

/-- A number that is not zero does not begin with one. -/
theorem toDigits_head {n : Nat} (hn : 0 < n) : (Nat.toDigits 10 n).head? ≠ some '0' := by
  induction n using Nat.strongRecOn with
  | ind n ih =>
    by_cases hsmall : n < 10
    · have hall : ∀ m < 10, 0 < m → m.digitChar ≠ '0' := by decide
      rw [Nat.toDigits_of_lt_base hsmall]
      simpa using hall n hsmall hn
    · rw [Nat.toDigits_of_base_le (by decide) (by omega),
        List.head?_append_of_ne_nil _ Nat.toDigits_ne_nil]
      exact ih (n / 10) (by omega) (by omega)

theorem denotes_size (n : UInt64) : Denotes (toString n).toList (.integer n.toNat) := by
  have hwritten : (toString n).toList = Nat.toDigits 10 n.toNat := Nat.toList_repr
  have hdigits : ∀ c ∈ Nat.toDigits 10 n.toNat, c.isDigit = true := fun c hc =>
    Nat.isDigit_of_mem_toDigits (by decide) (by decide) hc
  have hsome : Nat.toDigits 10 n.toNat ≠ [] := Nat.toDigits_ne_nil
  have hzero : (Nat.toDigits 10 n.toNat).length = 1 ∨
      (Nat.toDigits 10 n.toNat).head? ≠ some '0' := by
    by_cases hn : n.toNat = 0
    · exact .inl (by rw [hn]; rfl)
    · exact .inr (toDigits_head (Nat.pos_of_ne_zero hn))
  have hvalue := readInteger_digits hdigits hsome hzero
  rw [Nat.ofDigitChars_ten_toDigits] at hvalue
  have hword (word : Text) (hletter : ∃ c ∈ word, c.isDigit = false) :
      Nat.toDigits 10 n.toNat ≠ word := by
    rintro rfl
    obtain ⟨c, hc, hother⟩ := hletter
    simp [hdigits c hc] at hother
  have hread : readWord (Nat.toDigits 10 n.toNat) = some (.integer n.toNat) := by
    rw [readWord, if_neg (hword _ ⟨'t', by decide, by decide⟩),
      if_neg (hword _ ⟨'f', by decide, by decide⟩), hvalue]
  rw [hwritten]
  refine denotes_word hsome (fun c hc => ?_) (by simp [dropDate_digits hdigits]) hread
  simp [isWordChar, Char.isAlphanum, hdigits c hc]

/-! ### Lines -/

/-- What stands in a name without quotes begins nothing else. -/
theorem isKeyChar_apart {c : Char} (hc : isKeyChar c = true) :
    isSpace c = false ∧ c ≠ '"' ∧ c ≠ '\'' ∧ c ≠ '[' ∧ c ≠ '#' ∧ c ≠ '\n' ∧ c ≠ '\r' := by
  have hother (d : Char) (hd : isKeyChar d = false) : c ≠ d :=
    ne_of_apply_ne isKeyChar (by simp [hc, hd])
  refine ⟨?_, hother _ (by decide), hother _ (by decide), hother _ (by decide),
    hother _ (by decide), hother _ (by decide), hother _ (by decide)⟩
  simp [isSpace, hother ' ' (by decide), hother '\t' (by decide)]

/-- A name that is written without quotes. -/
structure BareKey where
  name : String
  nonempty : name.toList ≠ []
  bare : name.toList.all isKeyChar = true

namespace BareKey

theorem isKeyChar_of_mem (key : BareKey) {c : Char} (hc : c ∈ key.name.toList) :
    isKeyChar c = true :=
  List.all_eq_true.mp key.bare c hc

theorem exists_cons (key : BareKey) :
    ∃ c more, key.name.toList = c :: more ∧ isKeyChar c = true := by
  obtain ⟨c, more, hcons⟩ := List.exists_cons_of_ne_nil key.nonempty
  exact ⟨c, more, hcons, key.isKeyChar_of_mem (hcons ▸ List.mem_cons_self)⟩

theorem readSimpleKey (key : BareKey) {rest : Text}
    (hend : ∀ c ∈ rest.head?, isKeyChar c = false) :
    readSimpleKey (key.name.toList ++ rest) = some (key.name.toList, rest) := by
  have hrun : Text.run isKeyChar (key.name.toList ++ rest) = key.name.toList.length := by
    have hrest : rest.takeWhile isKeyChar = [] := by
      cases rest with
      | nil => rfl
      | cons c rest => simp [hend c rfl]
    rw [Text.run, List.takeWhile_append_of_pos fun c => key.isKeyChar_of_mem, hrest,
      List.append_nil]
  obtain ⟨c, more, hcons, hc⟩ := key.exists_cons
  obtain ⟨-, hdouble, hsingle, -⟩ := isKeyChar_apart hc
  have hquote : ¬ (c = '"' ∨ c = '\'') := by simp [hdouble, hsingle]
  rw [hcons] at hrun ⊢
  rw [List.cons_append] at hrun ⊢
  rw [GroovyShell.readSimpleKey, if_neg hquote]
  simp only [hrun]
  rw [if_neg (by simp), ← List.cons_append, List.take_left, List.drop_left]

/-- A key without dots is read with the white space behind it. -/
theorem readKey (key : BareKey) {rest : Text} (hend : ∀ c ∈ rest.head?, isKeyChar c = false)
    (hdot : ∀ c ∈ (rest.dropWhile isSpace).head?, c ≠ '.') :
    readKey (key.name.toList ++ rest) = some ([], key.name.toList, rest.dropWhile isSpace) := by
  have hspace : (key.name.toList ++ rest).dropWhile isSpace = key.name.toList ++ rest := by
    obtain ⟨c, more, hcons, hc⟩ := key.exists_cons
    simp [hcons, (isKeyChar_apart hc).1]
  have hparts (fuel : Nat) : readKeyParts (fuel + 1) (key.name.toList ++ rest) =
      some ([], key.name.toList, rest.dropWhile isSpace) := by
    rw [readKeyParts, hspace, key.readSimpleKey hend]
    cases hbehind : rest.dropWhile isSpace with
    | nil => simp [hbehind]
    | cons c more =>
      have hc : c ≠ '.' := hdot c (by rw [hbehind]; rfl)
      simp [hbehind, hc]
  rw [GroovyShell.readKey, hparts]
  rfl

end BareKey

/-- A line of a section, with what it says. -/
structure WrittenSetting where
  key : BareKey
  text : Text
  value : TomlValue
  denotes : Denotes text value

namespace WrittenSetting

def write (s : WrittenSetting) : Text := writeLine s.key.name s.text

def entry (s : WrittenSetting) : Text × TomlValue := (s.key.name.toList, s.value)

end WrittenSetting

/-- `Reads draft t entries`: with as much fuel as a document of that length is given,
    the reader goes on with `t` from the draft and ends with the entries. -/
def Reads (draft : Draft) (t : Text) (entries : TomlEntries) : Prop :=
  ∀ fuel, t.length < fuel → readLines fuel draft t = some entries

namespace Reads

variable {draft : Draft} {t rest : Text} {entries changed : TomlEntries}

theorem nil (draft : Draft) : Reads draft [] draft.entries := by
  intro fuel hfuel
  obtain ⟨fuel, rfl⟩ := Nat.exists_eq_succ_of_ne_zero (Nat.ne_zero_of_lt hfuel)
  rfl

/-- An empty line says nothing. -/
theorem newline (h : Reads draft t entries) : Reads draft ('\n' :: t) entries := by
  intro fuel hfuel
  obtain ⟨fuel, rfl⟩ := Nat.exists_eq_succ_of_ne_zero (Nat.ne_zero_of_lt hfuel)
  rw [← h (fuel + 1) (Nat.lt_of_succ_lt hfuel)]
  rfl

/-- Where a line begins nothing is skipped. -/
theorem dropLines_line {c : Char} (hc : isSpace c = false ∧ c ≠ '#' ∧ c ≠ '\n' ∧ c ≠ '\r') (n : Nat)
    (t : Text) : dropLines n (c :: t) = some (c :: t) := by
  cases n with
  | zero => rfl
  | succ n =>
    have hcomment : dropComment (c :: t) = some (c :: t) := by simp [dropComment, hc.2.1]
    have hbreak : dropLineBreak (c :: t) = none := dropLineBreak_eq_none hc.2.2 t
    simp [dropLines, hc.1, hcomment, hbreak]

/-- A line that is not empty is read, and then those behind it. -/
theorem line {c : Char} {after : Draft} (hc : isSpace c = false ∧ c ≠ '#' ∧ c ≠ '\n' ∧ c ≠ '\r')
    (hline : readLine draft (c :: t) = some (after, '\n' :: rest))
    (hlength : rest.length ≤ t.length) (h : Reads after rest entries) :
    Reads draft (c :: t) entries := by
  intro fuel hfuel
  obtain ⟨fuel, rfl⟩ := Nat.exists_eq_succ_of_ne_zero (Nat.ne_zero_of_lt hfuel)
  have hend : endLine ('\n' :: rest) = some rest := rfl
  have hrest := h fuel (by simp at hfuel; omega)
  simp [readLines, dropLines_line hc, hline, hend, hrest]

end Reads

/-! ### Sections -/

theorem lookup_eq_none {entries : TomlEntries} {key : Text} (h : key ∉ entries.map Prod.fst) :
    entries.lookup key = none := by
  rw [List.lookup_eq_none_iff]
  intro e he
  have hother : key ≠ e.1 := fun hsame => h (hsame ▸ List.mem_map_of_mem he)
  simpa using hother

/-- Among other tables the one that was opened last is changed. -/
theorem changeOpen_last {front inner : TomlEntries} {name key : Text} {value : TomlValue}
    (hname : name ∉ front.map Prod.fst) (hkey : key ∉ inner.map Prod.fst) :
    changeOpen (addValue [] key value .header) [name] (front ++ [(name, .table .header inner)]) =
      some (front ++ [(name, .table .header (inner ++ [(key, value)]))]) := by
  have hfound : (front ++ [(name, TomlValue.table .header inner)]).lookup name =
      some (.table .header inner) := by
    simp [List.lookup_append, lookup_eq_none hname]
  have hkept : front.map (fun e => if e.1 = name then
      (name, TomlValue.table .header (inner ++ [(key, value)])) else e) = front := by
    conv_rhs => rw [← List.map_id front]
    apply List.map_congr_left
    intro e he
    have hother : e.1 ≠ name := fun hsame => hname (hsame ▸ List.mem_map_of_mem he)
    exact if_neg hother
  have hadded : addValue [] key value .header inner = some (inner ++ [(key, value)]) := by
    simp [addValue, changeTable, lookup_eq_none hkey]
  simp [changeOpen, changeTable, hfound, hadded, replaceEntry, hkept]

theorem addTable_new {front : TomlEntries} {name : Text} (hname : name ∉ front.map Prod.fst) :
    addTable [] name front = some (front ++ [(name, .table .header [])]) := by
  simp [addTable, changeTable, lookup_eq_none hname]

namespace WrittenSetting

theorem exists_cons (s : WrittenSetting) :
    ∃ c more, s.write = c :: more ∧ c ≠ '[' ∧
      isSpace c = false ∧ c ≠ '#' ∧ c ≠ '\n' ∧ c ≠ '\r' := by
  obtain ⟨c, more, hcons, hc⟩ := s.key.exists_cons
  obtain ⟨hspace, -, -, hsquare, hothers⟩ := isKeyChar_apart hc
  exact ⟨c, _, by rw [write, writeLine, hcons]; rfl, hsquare, hspace, hothers⟩

/-- The name and the value of a setting are read up to the end of its line. -/
theorem readPair (s : WrittenSetting) (rest : Text) :
    readPair (readValue nestingLimit) (s.write ++ rest) =
      some ([], s.key.name.toList, s.value, '\n' :: rest) := by
  let behind : Text := ' ' :: '=' :: ' ' :: (s.text ++ '\n' :: rest)
  have hblank : isKeyChar ' ' = false := by decide
  have hkey : GroovyShell.readKey (s.key.name.toList ++ behind) =
      some ([], s.key.name.toList, behind.dropWhile isSpace) :=
    s.key.readKey (by simpa [behind] using hblank) (by simp [behind, isSpace])
  have hsign : behind.dropWhile isSpace = '=' :: ' ' :: (s.text ++ '\n' :: rest) := by
    simp [behind, isSpace]
  have hvalue : (' ' :: (s.text ++ '\n' :: rest)).dropWhile isSpace = s.text ++ '\n' :: rest := by
    rw [List.dropWhile_cons_of_pos (by rfl)]
    cases htext : s.text with
    | nil => rfl
    | cons c more =>
      have hc : isSpace c = false := s.denotes.solid c (by rw [htext]; rfl)
      simp [hc]
  have hwritten : s.write ++ rest = s.key.name.toList ++ behind := by
    simp [write, writeLine, behind]
  rw [hwritten]
  simp [GroovyShell.readPair, hkey, hsign, dropChar, hvalue, s.denotes.read]

/-- The line of a setting adds its entry to the section that is open. -/
theorem readLine (s : WrittenSetting) (draft : Draft) {changed : TomlEntries}
    (hchanged : changeOpen (addValue [] s.key.name.toList s.value .header) draft.header
      draft.entries = some changed) (rest : Text) :
    readLine draft (s.write ++ rest) = some (⟨draft.header, changed⟩, '\n' :: rest) := by
  have hpair := s.readPair rest
  obtain ⟨c, more, hwritten, hsquare, -⟩ := s.exists_cons
  rw [hwritten, List.cons_append] at hpair ⊢
  unfold GroovyShell.readLine
  split
  · rename_i heq
    exact absurd (List.cons.inj heq).1 hsquare
  · simp [hpair, hchanged]

end WrittenSetting

/-- A section whose settings have different names. -/
structure WrittenSection where
  key : BareKey
  settings : List WrittenSetting
  distinct : ((settings.map WrittenSetting.entry).map Prod.fst).Nodup

namespace WrittenSection

def write (s : WrittenSection) : Text :=
  '[' :: (s.key.name.toList ++ ']' :: '\n' :: (s.settings.map WrittenSetting.write).flatten)

/-- The table a section is read as, under its name. -/
def entry (s : WrittenSection) : Text × TomlValue :=
  (s.key.name.toList, .table .header (s.settings.map WrittenSetting.entry))

end WrittenSection

namespace Reads

variable {front entries : TomlEntries} {rest : Text}

/-- The settings of a section are added to its table one by one. -/
theorem settings {name : Text} {inner : TomlEntries} {settings : List WrittenSetting}
    (hname : name ∉ front.map Prod.fst)
    (hdistinct : ((inner ++ settings.map WrittenSetting.entry).map Prod.fst).Nodup)
    (h : Reads
      ⟨[name], front ++ [(name, .table .header (inner ++ settings.map WrittenSetting.entry))]⟩
      rest entries) :
    Reads ⟨[name], front ++ [(name, .table .header inner)]⟩
      ((settings.map WrittenSetting.write).flatten ++ rest) entries := by
  induction settings generalizing inner with
  | nil => simpa using h
  | cons s more ih =>
    rw [List.map_cons, List.append_cons inner s.entry] at hdistinct h
    have hkey : s.key.name.toList ∉ inner.map Prod.fst := by
      intro hmem
      rw [List.map_append, List.map_append] at hdistinct
      have hapart := (List.nodup_append.mp (List.nodup_append.mp hdistinct).1).2.2
      exact hapart _ hmem _ (by simp [WrittenSetting.entry]) rfl
    have hline := s.readLine ⟨[name], front ++ [(name, .table .header inner)]⟩
      (changeOpen_last hname hkey) ((more.map WrittenSetting.write).flatten ++ rest)
    obtain ⟨c, written, hwritten, -, hc⟩ := s.exists_cons
    rw [List.map_cons, List.flatten_cons, List.append_assoc]
    have hlength : ((more.map WrittenSetting.write).flatten ++ rest).length ≤
      (written ++ ((more.map WrittenSetting.write).flatten ++ rest)).length := by simp
    rw [hwritten, List.cons_append] at hline ⊢
    exact .line hc hline hlength (ih hdistinct h)

/-- A section is read as its table, behind those of the sections before it. -/
theorem written (s : WrittenSection) {header : List Text}
    (hname : s.key.name.toList ∉ front.map Prod.fst)
    (h : Reads ⟨[s.key.name.toList], front ++ [s.entry]⟩ rest entries) :
    Reads ⟨header, front⟩ (s.write ++ rest) entries := by
  let behind : Text := (s.settings.map WrittenSetting.write).flatten ++ rest
  have hsettings : Reads ⟨[s.key.name.toList], front ++ [(s.key.name.toList, .table .header [])]⟩
    behind entries := settings hname s.distinct h
  have hwritten : s.write ++ rest = '[' :: (s.key.name.toList ++ ']' :: '\n' :: behind) := by
    simp [WrittenSection.write, behind]
  have hsquare : isKeyChar ']' = false := by decide
  have hkey : readKey (s.key.name.toList ++ ']' :: '\n' :: behind) =
      some ([], s.key.name.toList, ']' :: '\n' :: behind) := by
    have hread : readKey (s.key.name.toList ++ ']' :: '\n' :: behind) =
        some ([], s.key.name.toList, (']' :: '\n' :: behind).dropWhile isSpace) :=
      s.key.readKey (by simpa using hsquare) (by simp [isSpace])
    simpa [isSpace] using hread
  have hsingle : Text.beginsWith (s.key.name.toList ++ ']' :: '\n' :: behind) ['['] = false := by
    obtain ⟨c, more, hcons, hc⟩ := s.key.exists_cons
    obtain ⟨-, -, -, hsquare, -⟩ := isKeyChar_apart hc
    simp [hcons, Text.beginsWith, List.isPrefixOf, hsquare.symm]
  have hline : readLine ⟨header, front⟩ ('[' :: (s.key.name.toList ++ ']' :: '\n' :: behind)) =
      some (⟨[s.key.name.toList], front ++ [(s.key.name.toList, .table .header [])]⟩,
        '\n' :: behind) := by
    simp [readLine, readHeader, hsingle, hkey, dropChar, addTable_new hname]
  rw [hwritten]
  exact .line (by decide) hline (by simp; omega) hsettings

end Reads

/-! ### The settings -/

namespace WrittenSetting

def string (key : BareKey) (t : Text) : WrittenSetting :=
  ⟨key, writeString t, .string t, denotes_string t⟩

def switch (key : BareKey) (b : Bool) : WrittenSetting :=
  ⟨key, writeSwitch b, .boolean b, denotes_switch b⟩

def size (key : BareKey) (n : UInt64) : WrittenSetting :=
  ⟨key, (toString n).toList, .integer n.toNat, denotes_size n⟩

end WrittenSetting

/-- Nothing is ignored in a table with known names only. -/
theorem readSection_table {names : List String} {origin : TableOrigin} {entries : TomlEntries}
    (hnames : ∀ e ∈ entries, ∃ n ∈ names, n.toList = e.1) :
    readSection names (.table origin entries) = some fun name => entries.lookup name := by
  have hnone : entries.filter (fun e => !names.any fun n => n.toList == e.1) = [] := by
    rw [List.filter_eq_nil_iff]
    intro e he
    simpa using hnames e he
  rw [readSection]
  simp only [hnone, entriesIgnorable, if_true]

namespace WrittenSection

/-- What the settings say, by their names. -/
def values (s : WrittenSection) : Section := fun name =>
  (s.settings.map WrittenSetting.entry).lookup name

theorem readSection (s : WrittenSection) {names : List String}
    (hnames : ∀ x ∈ s.settings, x.key.name ∈ names) :
    readSection names s.entry.2 = some s.values := by
  apply readSection_table
  intro e he
  obtain ⟨x, hx, rfl⟩ := List.mem_map.mp he
  exact ⟨_, hnames x hx, rfl⟩

theorem values_of_mem (s : WrittenSection) {x : WrittenSetting} (hx : x ∈ s.settings) :
    s.values x.key.name.toList = some x.value := by
  obtain ⟨before, after, hsettings⟩ := List.append_of_mem hx
  have hdistinct := s.distinct
  rw [hsettings, List.map_append, List.map_append, List.map_cons, List.map_cons] at hdistinct
  have hapart := (List.nodup_append.mp hdistinct).2.2
  have hbefore : x.key.name.toList ∉ (before.map WrittenSetting.entry).map Prod.fst := fun hmem =>
    hapart _ hmem _ List.mem_cons_self rfl
  simp [values, hsettings, List.lookup_append, lookup_eq_none hbefore, WrittenSetting.entry]

theorem get_of_mem {α : Type} (s : WrittenSection) {x : WrittenSetting} (hx : x ∈ s.settings)
    (read : TomlValue → Option α) (default : α) :
    s.values.get x.key.name read default = read x.value := by
  rw [Section.get, s.values_of_mem hx]

theorem get_of_not_mem {α : Type} (s : WrittenSection) {name : String}
    (hname : ∀ x ∈ s.settings, x.key.name ≠ name) (read : TomlValue → Option α) (default : α) :
    s.values.get name read default = some default := by
  have hnone : s.values name.toList = none := by
    apply lookup_eq_none
    simp only [List.map_map, List.mem_map, not_exists, not_and]
    intro x hx hsame
    exact hname x hx (String.toList_inj.mp hsame)
  rw [Section.get, hnone]

/-- A section is its heading with a line for each setting behind it. -/
theorem write_eq (s : WrittenSection) {heading : Text}
    (h : heading = '[' :: (s.key.name.toList ++ [']', '\n'])) :
    s.write = (s.settings.map WrittenSetting.write).foldl (· ++ ·) heading := by
  have hlines (lines : List Text) (front : Text) :
      lines.foldl (· ++ ·) front = front ++ lines.flatten := by
    induction lines generalizing front with
    | nil => simp
    | cons line lines ih => simp [ih]
  rw [hlines, h]
  simp [write]

end WrittenSection

namespace HistorySettings

def maxSizeLine (h : HistorySettings) : WrittenSetting :=
  .size ⟨"max_size", by decide, by decide⟩ h.maxSize

def filePathLine (h : HistorySettings) : WrittenSetting :=
  .string ⟨"file_path", by decide, by decide⟩ h.filePath

def persistLine (h : HistorySettings) : WrittenSetting :=
  .switch ⟨"persist", by decide, by decide⟩ h.persist

def written (h : HistorySettings) : WrittenSection where
  key := ⟨"history", by decide, by decide⟩
  settings := [h.maxSizeLine, h.filePathLine, h.persistLine]
  distinct := by
    simp only [List.map, WrittenSetting.entry, maxSizeLine, filePathLine, persistLine,
      WrittenSetting.size, WrittenSetting.string, WrittenSetting.switch]
    decide

theorem write_written (h : HistorySettings) : h.written.write = h.write :=
  h.written.write_eq (by decide : "[history]\n".toList = '[' :: ("history".toList ++ [']', '\n']))

theorem read_written (home : Option Text) (h : HistorySettings) :
    readHistory home h.written.entry.2 = some h := by
  have hsection : readSection historyNames h.written.entry.2 = some h.written.values := by
    apply h.written.readSection
    simp [written, maxSizeLine, filePathLine, persistLine, historyNames,
      WrittenSetting.size, WrittenSetting.string, WrittenSetting.switch]
  have hsize : h.written.values.get "max_size" readSize (default home).maxSize =
      some h.maxSize := by
    have hlt : h.maxSize.toNat < UInt64.size := h.maxSize.toNat_lt
    have hread : readSize (.integer h.maxSize.toNat) = some h.maxSize := by simp [readSize, hlt]
    exact (h.written.get_of_mem (x := h.maxSizeLine) (by simp [written]) _ _).trans hread
  have hpath : h.written.values.get "file_path" readPath (default home).filePath =
      some h.filePath :=
    h.written.get_of_mem (x := h.filePathLine) (by simp [written]) _ _
  have hpersist : h.written.values.get "persist" readSwitch (default home).persist =
      some h.persist :=
    h.written.get_of_mem (x := h.persistLine) (by simp [written]) _ _
  simp [readHistory, hsection, hsize, hpath, hpersist]

end HistorySettings

namespace LoggingSettings

def levelLine (l : LoggingSettings) : WrittenSetting :=
  .string ⟨"level", by decide, by decide⟩ l.level.spelling.toList

def filePathLine (path : Text) : WrittenSetting :=
  .string ⟨"file_path", by decide, by decide⟩ path

def timestampsLine (l : LoggingSettings) : WrittenSetting :=
  .switch ⟨"timestamps", by decide, by decide⟩ l.timestamps

/-- Without a log file there is no line for one. -/
def written (l : LoggingSettings) : WrittenSection where
  key := ⟨"logging", by decide, by decide⟩
  settings := l.levelLine :: ((l.filePath.map filePathLine).toList ++ [l.timestampsLine])
  distinct := by
    cases l.filePath <;>
      simp only [Option.map_none, Option.map_some, Option.toList_none, Option.toList_some,
        List.nil_append, List.cons_append, List.map, WrittenSetting.entry, levelLine, filePathLine,
        timestampsLine, WrittenSetting.string, WrittenSetting.switch] <;>
      decide

theorem write_written (l : LoggingSettings) : l.written.write = l.write := by
  have hwrite := l.written.write_eq
    (by decide : "[logging]\n".toList = '[' :: ("logging".toList ++ [']', '\n']))
  obtain ⟨level, filePath, timestamps⟩ := l
  cases filePath with
  | some path => exact hwrite
  | none =>
    have hnothing (front line : Text) : front ++ line = front ++ [] ++ line := by simp
    exact hwrite.trans (hnothing _ _)

theorem read_written (l : LoggingSettings) : readLogging l.written.entry.2 = some l := by
  have hsection : readSection loggingNames l.written.entry.2 = some l.written.values := by
    apply l.written.readSection
    cases hpath : l.filePath <;>
      simp [written, hpath, levelLine, filePathLine, timestampsLine, loggingNames,
        WrittenSetting.string, WrittenSetting.switch]
  have hlevel : l.written.values.get "level" readLevel default.level = some l.level := by
    have hread : readLevel (.string l.level.spelling.toList) = some l.level := by
      cases l.level <;> rfl
    exact (l.written.get_of_mem (x := l.levelLine) (by simp [written]) _ _).trans hread
  have hpath : l.written.values.get "file_path" (fun v => (readPath v).map some) default.filePath =
      some l.filePath := by
    cases hpath : l.filePath with
    | some path =>
      exact l.written.get_of_mem (x := filePathLine path) (by simp [written, hpath]) _ _
    | none =>
      apply l.written.get_of_not_mem
      simp [written, hpath, levelLine, timestampsLine, WrittenSetting.string,
        WrittenSetting.switch]
  have htimestamps : l.written.values.get "timestamps" readSwitch default.timestamps =
      some l.timestamps :=
    l.written.get_of_mem (x := l.timestampsLine) (by simp [written]) _ _
  simp [readLogging, hsection, hlevel, hpath, htimestamps]

end LoggingSettings

namespace CompletionSettings

def written (c : CompletionSettings) : WrittenSection where
  key := ⟨"completion", by decide, by decide⟩
  settings :=
    [.switch ⟨"keywords", by decide, by decide⟩ c.keywords,
      .switch ⟨"variables", by decide, by decide⟩ c.bindings,
      .switch ⟨"imports", by decide, by decide⟩ c.imports,
      .switch ⟨"custom_classes", by decide, by decide⟩ c.customClasses,
      .switch ⟨"members", by decide, by decide⟩ c.members,
      .switch ⟨"filenames", by decide, by decide⟩ c.filenames,
      .switch ⟨"show_hidden_files", by decide, by decide⟩ c.showHiddenFiles]
  distinct := by
    simp only [List.map, WrittenSetting.entry, WrittenSetting.switch]
    decide

theorem write_written (c : CompletionSettings) : c.written.write = c.write :=
  c.written.write_eq
    (by decide : "[completion]\n".toList = '[' :: ("completion".toList ++ [']', '\n']))

theorem read_written (c : CompletionSettings) : readCompletion c.written.entry.2 = some c := by
  have hsection : readSection completionNames c.written.entry.2 = some c.written.values := by
    apply c.written.readSection
    simp [written, completionNames, WrittenSetting.switch]
  have hall : ∀ x ∈ c.written.settings, ∀ d : Bool,
      c.written.values.get x.key.name readSwitch d = readSwitch x.value :=
    fun x hx d => c.written.get_of_mem hx readSwitch d
  generalize c.written.values = values at hsection hall
  simp only [written, List.forall_mem_cons, WrittenSetting.switch, readSwitch] at hall
  obtain ⟨hkeywords, hvariables, himports, hclasses, hmembers, hfilenames, hhidden, -⟩ := hall
  simp [readCompletion, hsection, hkeywords, hvariables, himports, hclasses, hmembers, hfilenames,
    hhidden]

end CompletionSettings

/-! ### The document -/

namespace Config

variable (c : Config)

def sections : List WrittenSection := [c.history.written, c.logging.written, c.completion.written]

def entries : TomlEntries := c.sections.map WrittenSection.entry

theorem write_eq :
    c.write = c.history.written.write ++ ('\n' :: (c.logging.written.write ++
      ('\n' :: (c.completion.written.write ++ [])))) := by
  rw [c.history.write_written, c.logging.write_written, c.completion.write_written, write]
  simp

theorem reads_write : Reads ⟨[], []⟩ c.write c.entries := by
  have hend : Reads ⟨["completion".toList], c.entries⟩ [] c.entries := .nil _
  have hlogging : c.logging.written.key.name.toList ∉
      ([] ++ [c.history.written.entry]).map Prod.fst := by
    simp [WrittenSection.entry, HistorySettings.written, LoggingSettings.written]
  have hcompletion : c.completion.written.key.name.toList ∉
      ([] ++ [c.history.written.entry] ++ [c.logging.written.entry]).map Prod.fst := by
    simp [WrittenSection.entry, HistorySettings.written, LoggingSettings.written,
      CompletionSettings.written]
  rw [write_eq]
  exact .written _ (by simp) (.newline (.written _ hlogging (.newline
    (.written _ hcompletion hend))))

theorem readDocument_write : readDocument c.write = some c.entries := by
  have hmark : c.write.dropHead? ['\uFEFF'] = none := by
    have hother : '\uFEFF' ≠ '[' := by decide
    rw [write_eq, Text.dropHead?_eq_none_iff]
    simp [WrittenSection.write, hother]
  rw [readDocument, hmark, Option.getD_none]
  exact c.reads_write _ (Nat.lt_succ_self _)

theorem readConfig_entries (home : Option Text) : readConfig home c.entries = some c := by
  have hsections : readSection ["history", "logging", "completion"] (.table .header c.entries) =
      some fun name => c.entries.lookup name := by
    apply readSection_table
    simp [entries, sections, WrittenSection.entry, HistorySettings.written,
      LoggingSettings.written, CompletionSettings.written]
  have hentries : c.entries = [("history".toList, c.history.written.entry.2),
      ("logging".toList, c.logging.written.entry.2),
      ("completion".toList, c.completion.written.entry.2)] := rfl
  rw [readConfig, hsections, hentries]
  simp [Section.get, List.lookup, c.history.read_written home, c.logging.read_written,
    c.completion.read_written]

/-- The settings of a document that was written are those it was written from, wherever
    the home directory is. -/
theorem configOfText_write (home : Option Text) : configOfText home c.write = .ok c := by
  rw [configOfText, c.readDocument_write, Option.bind_some, c.readConfig_entries home]

end Config

end GroovyShell
