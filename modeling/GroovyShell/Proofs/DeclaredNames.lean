/-
  GroovyShell/Proofs/DeclaredNames.lean
  =====================================
  **What a finished statement declares can be completed.**

  Every name that a statement introduces was a name when the statement was read,
  so any beginning of it that is no reserved word is read as a name again, alone
  or behind other tokens.  There the cursor calls for a word, the source of names
  that knows the declaration is asked, and the bytes to be replaced are those of
  the beginning that was typed.
-/
import GroovyShell.Proofs.DeclarationLines
import GroovyShell.Proofs.ImportLines
import GroovyShell.Proofs.OuterNames
import GroovyShell.Proofs.Replacement
import GroovyShell.Proofs.SessionReplay
import GroovyShell.Proofs.TextEnds
import GroovyShell.Proofs.WordColumn

namespace GroovyShell

/-! ### Names come from names -/

/-- Unless it is an import, a declaration introduces a name among the tokens. -/
theorem declarationsFrom_named {depth : Nat} {before : Option Token} {tokens : List Token}
    {d : Declaration} (h : d ∈ declarationsFrom depth before tokens)
    (hkind : d.introduces.1 ≠ .imports) : ∃ t ∈ tokens, t.kind = .name ∧ t.text = d.introduces.2 := by
  obtain ⟨skipped, first, rest, rfl, -, -, hdeclared⟩ := declarationsFrom_start h
  obtain ⟨n, -, hwalked, htext⟩ := declarationAt_walks hdeclared hkind
  have hname : n.name ∈ n.walked := by simp [DeclaredName.walked]
  exact ⟨n.name, List.mem_append_right skipped (hwalked.subset hname), n.isName, htext⟩

theorem wordItem_plain {t : Text} {kind : TokenKind} {n : Nat}
    (h : wordItem t = some (kind, n)) : isPlainName (t.take n) = true := by
  rcases t with _ | ⟨c, t⟩
  · simp [wordItem] at h
  simp only [wordItem] at h
  split at h
  · rename_i hstart
    simp only [Option.some.injEq, Prod.mk.injEq] at h
    have hword : (c :: t).take n = c :: t.takeWhile continuesName := by
      rw [← h.2, List.length_cons, List.take_succ_cons]
      exact congrArg _ (Text.take_run continuesName t)
    rw [hword, isPlainName, hstart, Bool.true_and]
    exact List.all_takeWhile
  · simp at h

/-- A token that is a name is written as one. -/
theorem itemAt_name {nesting after : List Interpolation} {t : Text} {n : Nat}
    (h : itemAt nesting t = .token .name n after) : isPlainName (t.take n) = true := by
  rcases t with _ | ⟨c, t⟩
  · simp [itemAt] at h
  cases itemAt_head h with
  | brace hitem hbrace _ =>
    simp only [Item.token.injEq] at hitem
    rw [← hitem.1] at hbrace
    simp at hbrace
  | resumed hitem _ _ =>
    rcases stringItem_token hitem.symm with ⟨hkind, -⟩ | ⟨hkind, -⟩ <;> simp at hkind
  | quoted hitem _ =>
    rcases stringItem_token hitem.symm with ⟨hkind, -⟩ | ⟨hkind, -⟩ <;> simp at hkind
  | plain hitem hplain =>
    simp only [Item.token.injEq] at hitem
    obtain ⟨rfl, rfl, -⟩ := hitem
    rw [plainItem_eq_some] at hplain
    rcases hplain with hdot | ⟨-, hmark | ⟨-, hnumber | ⟨-, hword | ⟨-, hop⟩⟩⟩⟩
    · unfold dotItem at hdot
      split at hdot <;> simp at hdot
    · unfold markItem at hmark
      split at hmark <;> simp at hmark
    · rw [numberItem] at hnumber
      split at hnumber <;> simp at hnumber
    · exact wordItem_plain hword
    · obtain ⟨op, -, hop⟩ := Option.map_eq_some_iff.mp hop
      simp at hop
  | unexpected hitem => simp at hitem

/-- But for imports, all that a text declares is plain names. -/
theorem declarations_plain {source name : Text} {d : Declaration} {kind : NameKind}
    (hd : d ∈ declarations source) (hname : d.introduces = (kind, name)) (hkind : kind ≠ .imports) :
    isPlainName name = true := by
  unfold declarations at hd
  split at hd
  · rename_i tokens htokens
    obtain ⟨t, ht, hkindName, htext⟩ := declarationsFrom_named hd (by rwa [hname])
    obtain ⟨-, hlex⟩ := tokensOf_eq_ok.mp htokens
    rw [← hlex] at ht
    obtain ⟨nesting, rest, after, hitem⟩ := Lexer.run_item _ t ht
    rw [hkindName] at hitem
    have hplain := itemAt_name hitem
    rwa [List.take_left, htext, hname] at hplain
  · simp at hd

/-- The variables, methods and classes of a session are plain names. -/
theorem names_plain (completion : CompletionSettings) (color : Bool) (inputs : List Text)
    {kind : NameKind} (hkind : kind ≠ .imports) {name : Text}
    (h : name ∈ ((Repl.opened completion color).after inputs).session.names kind) :
    isPlainName name = true := by
  rw [← Session.names_clearBuffer, Repl.after_replay, Session.mem_names_replay] at h
  obtain ⟨d, hd, hname⟩ := h
  obtain ⟨e, -, hdeclared⟩ := List.mem_flatMap.mp hd
  cases e with
  | recorded statement => exact declarations_plain hdeclared hname hkind
  | imported clause =>
    obtain rfl := List.mem_singleton.mp hdeclared
    obtain ⟨rfl, -⟩ := Prod.mk.inj hname
    exact absurd rfl hkind
  | purged target => simp [SessionEvent.declared] at hdeclared

/-- The beginning of a plain name is one. -/
theorem isPlainName_prefix {name typed : Text} (h : isPlainName name = true) (htyped : typed <+: name)
    (hsome : typed ≠ []) : isPlainName typed = true := by
  obtain ⟨rest, rfl⟩ := htyped
  obtain ⟨c, tail, rfl⟩ := List.exists_cons_of_ne_nil hsome
  simp only [List.cons_append, isPlainName, List.all_append, Bool.and_eq_true] at h ⊢
  exact ⟨h.1, h.2.1⟩

/-! ### The cursor behind a word -/

/-- At the end of a line that can be read the cursor is behind its tokens. -/
theorem cursorPlace_line {line : Text} {last : Token} {earlier : List Token} {eof : Token}
    (hline : '\n' ∉ line) (htokens : (lexAll line).tokens = earlier.reverse ++ [last])
    (hend : (lexAll line).ending = .ok eof) : cursorPlace [] line = .after ⟨last, earlier⟩ := by
  obtain ⟨after, hemits, -⟩ := Lexer.emits_run (.new line)
  obtain ⟨hkind, hposition⟩ := (lexAll_laidOut line).finish hend
  have hrow : last.position.line = 1 := by
    apply Lexer.run_line (l := .new line) hline
    rw [show (Lexer.new line).run.tokens = (lexAll line).tokens from rfl, htokens]
    exact List.mem_append_right _ List.mem_cons_self
  have heof : eof.position.line = 1 := by
    rw [hposition, List.nil_append, Position.behind, List.count_eq_zero.mpr hline]
  have hplace := hemits.place line 0 [] [.ok eof]
  rw [show (Lexer.new line).run.tokens = (lexAll line).tokens from rfl, htokens] at hplace
  have hreadings : (lexAll line).readings = (earlier.reverse ++ [last]).map .ok ++ [.ok eof] := by
    rw [Lexer.Scan.readings, htokens, hend]
  rw [cursorPlace, placeOfReadings, show Text.below [] line = line from rfl, hreadings]
  refine Eq.trans hplace ?_
  simp [placeFrom, hkind, placeAtEnd, hrow, heof]

/-- What one of several completers offers they offer together. -/
theorem mem_completeFromAll {completers : List NameCompleter} {completer : NameCompleter}
    {stream : TokenStream} {value : Text} (h : completer ∈ completers)
    (hoffers : ∀ present, value ∈ (completer stream present).candidates ∧
      (completer stream present).matched = true) (present : Nat) :
    value ∈ (completeFromAll completers stream present).candidates ∧
      (completeFromAll completers stream present).matched = true := by
  induction completers generalizing present with
  | nil => simp at h
  | cons first rest ih =>
    simp only [completeFromAll, List.mem_append, Bool.or_eq_true]
    rcases List.mem_cons.mp h with rfl | hrest
    · exact ⟨.inl (hoffers present).1, .inl (hoffers present).2⟩
    · have hothers := ih hrest (present + (first stream present).candidates.length)
      exact ⟨.inr hothers.1, .inr hothers.2⟩

/-- The source of names that knows the names of a kind. -/
def NameKind.source : NameKind → NameSource
  | .imports => .imports
  | .bindings | .methods => .bindings
  | .classes => .classes

/-- How a name of a kind is offered: a method with its opening parenthesis. -/
def NameKind.offered (kind : NameKind) (name : Text) : Text :=
  if kind = .methods then name ++ ['('] else name

theorem offered_mem_source {s : Session} {kind : NameKind} {name : Text} (h : name ∈ s.names kind)
    (hkind : kind ≠ .imports) : kind.offered name ∈ kind.source.names s := by
  cases kind with
  | imports => exact absurd rfl hkind
  | bindings => exact List.mem_append_left _ h
  | methods => exact List.mem_append_right _ (List.mem_map_of_mem h)
  | classes => exact h

theorem completeWord_offers {s : Session} {d : Disk} {stream : TokenStream} {kind : NameKind}
    {name : Text} (h : name ∈ s.names kind) (hkind : kind ≠ .imports)
    (hlast : stream.last.kind = .name) (htyped : stream.last.text <+: name) :
    kind.offered name ∈ ((engineFor .default s d).completeWord stream 0).candidates ∧
      ((engineFor .default s d).completeWord stream 0).place =
        some (stream.last.position.column - 1) := by
  have hword : stream.word = stream.last.text := by simp [TokenStream.word, hlast]
  have hfound : kind.offered name ∈ matching stream.word (kind.source.names s) := by
    rw [mem_matching, hword]
    refine ⟨offered_mem_source h hkind, ?_⟩
    rw [Text.beginsWith, List.isPrefixOf_iff_prefix]
    unfold NameKind.offered
    split
    · exact htyped.trans (List.prefix_append _ _)
    · exact htyped
  have hasked : kind.source.completer s ∈ (engineFor .default s d).names := by
    apply List.mem_map_of_mem
    cases kind <;> decide
  have hoffers : ∀ present,
      kind.offered name ∈ (kind.source.completer s stream present).candidates ∧
        (kind.source.completer s stream present).matched = true := by
    intro present
    refine ⟨hfound, ?_⟩
    have hsome : matching stream.word (kind.source.names s) ≠ [] := List.ne_nil_of_mem hfound
    simpa [NameSource.completer, completeFrom, List.isEmpty_iff] using hsome
  obtain ⟨hcandidate, hmatched⟩ := mem_completeFromAll hasked hoffers 0
  refine ⟨hcandidate, ?_⟩
  rw [Engine.completeWord]
  exact if_pos hmatched

/-! ### Suggestions at the end of a line -/

theorem charactersBefore_all (t : Text) : charactersBefore t t.byteLength = t.length := by
  have hall := charactersBefore_byteOfCharacter (le_refl t.length)
  rwa [byteOfCharacter, List.take_length] at hall

/-- The word up to the first space of a line that has one. -/
theorem Text.cut_space (front rest : Text) :
    ∃ after, (front ++ ' ' :: rest).cut (· == ' ') = some (front.takeWhile (· != ' '), after) := by
  induction front with
  | nil => exact ⟨rest, rfl⟩
  | cons c front ih =>
    obtain ⟨after, hafter⟩ := ih
    by_cases hspace : c = ' '
    · subst hspace
      exact ⟨front ++ ' ' :: rest, rfl⟩
    · refine ⟨after, ?_⟩
      simp [cut, hspace, hafter]

/-- A name that the cursor calls for is suggested in place of what is typed of it. -/
theorem suggestions_word {s : Session} {d : Disk} {line : Text} {stream : TokenStream}
    {kind : NameKind} {name : Text} (hbuffer : s.buffer = []) (hline : line ≠ [])
    (hcommand : (engineFor .default s d).isCommandLine line = false)
    (hplace : cursorPlace [] line = .after stream) (hcase : stream.case = .word)
    (hkind : kind ≠ .imports) (h : name ∈ s.names kind) (htyped : stream.last.text <+: name) :
    ⟨kind.offered name, byteOfCharacter line (stream.last.position.column - 1), line.byteLength,
      false⟩ ∈ suggestions .default s d line line.byteLength := by
  have hlast := TokenStream.name_of_case (.inl hcase)
  obtain ⟨hcandidate, hcolumn⟩ := completeWord_offers (d := d) h hkind hlast htyped
  have hcomplete : (engineFor .default s d).complete [] line line.length 0 =
      (engineFor .default s d).completeWord stream 0 := by
    rw [Engine.complete, if_neg (by simp [hline, hcommand]), List.take_length, hplace]
    simp only [Engine.completeAfter, hcase]
  rw [suggestions, hbuffer, Engine.suggest]
  simp only [Nat.min_self, charactersBefore_all, hcomplete, hcolumn]
  rw [Nat.min_eq_left (byteOfCharacter_le_byteLength line _)]
  exact List.mem_map_of_mem hcandidate

/-- `AdmitsName context last`: behind `context`, whose last token is `last`, and a
    space a name may be typed. -/
structure AdmitsName (context : Text) (last : Token) : Prop where
  line : '\n' ∉ context
  ends : EndsInToken context last
  no_name : last.kind ≠ .name
  no_dot : last.kind.isDot = false
  no_keyword : ∀ word, last.kind = .keyword word → word.suppressesCompletion = false
  no_command : (builtinCommands.any fun c => c.isNamedBy (context.takeWhile (· != ' '))) = false

/-- A name behind such a token is completed. -/
theorem AdmitsName.case {context : Text} {last : Token} (h : AdmitsName context last)
    {typed : Token} (hname : typed.kind = .name) (earlier : List Token) :
    TokenStream.case ⟨typed, last :: earlier⟩ = .word := by
  simp only [TokenStream.case, hname, TokenStream.previous, List.head?_cons, CompletionCase.ofWord]
  split
  · rename_i hdot
    have hnone := h.no_dot
    simp [hdot, TokenKind.isDot] at hnone
  · rename_i word hkeyword
    rw [if_neg (by simp [h.no_keyword word hkeyword])]
  · rename_i hother
    exact absurd hother h.no_name
  · rfl

theorem suggestions_alone {s : Session} (d : Disk) (hbuffer : s.buffer = []) {kind : NameKind}
    {name typed : Text} (hkind : kind ≠ .imports) (h : name ∈ s.names kind)
    (hplain : isPlainName typed = true) (htyped : typed <+: name)
    (hfree : Keyword.lookup typed = none) :
    ⟨kind.offered name, 0, typed.byteLength, false⟩ ∈
      suggestions .default s d typed typed.byteLength := by
  have hsolid : ∀ c, isBlank c = true → c ∉ typed := by
    intro c hblank
    exact Identifier.not_mem ⟨typed, hplain, hfree⟩ (Solid.continuesName c hblank)
  have hrest : (Lexer.new typed).rest = typed := rfl
  obtain ⟨htokens, eof, hend⟩ := Lexer.run_word hrest hplain
  rw [wordKind, hfree] at htokens
  have hplace : cursorPlace [] typed = .after ⟨⟨.name, typed, .start⟩, []⟩ :=
    cursorPlace_line (hsolid '\n' (by decide)) htokens hend
  have hcommand : (engineFor .default s d).isCommandLine typed = false := by
    rw [Engine.isCommandLine]
    cases hcut : typed.cut (· == ' ') with
    | none => rfl
    | some halves =>
      obtain ⟨c, hwhole, hspace, -⟩ := Text.cut_eq_some hcut
      obtain rfl : c = ' ' := by simpa using hspace
      exact absurd (by rw [hwhole]; simp) (hsolid ' ' (by decide))
  have hsome : typed ≠ [] := by
    rintro rfl
    simp [isPlainName] at hplain
  exact suggestions_word hbuffer hsome hcommand hplace rfl hkind h htyped

theorem suggestions_behind {s : Session} (d : Disk) (hbuffer : s.buffer = []) {kind : NameKind}
    {name typed context : Text} {last : Token} (hkind : kind ≠ .imports) (h : name ∈ s.names kind)
    (hplain : isPlainName typed = true) (htyped : typed <+: name)
    (hfree : Keyword.lookup typed = none) (hadmits : AdmitsName context last) :
    ⟨kind.offered name, Text.byteLength (context ++ [' ']),
      Text.byteLength (context ++ ' ' :: typed), false⟩ ∈
        suggestions .default s d (context ++ ' ' :: typed)
          (Text.byteLength (context ++ ' ' :: typed)) := by
  have hnewline : '\n' ∉ context ++ ' ' :: typed := by
    have hword := Identifier.newline_not_mem ⟨typed, hplain, hfree⟩
    simp [hadmits.line, hword]
  obtain ⟨htokens, eof, hend⟩ := lexAll_word hadmits.ends hplain
  rw [wordKind, hfree] at htokens
  obtain ⟨front, hfront⟩ := List.getLast?_eq_some_iff.mp hadmits.ends.ends
  let word : Token := ⟨.name, typed, .behind (context ++ [' '])⟩
  have hplace : cursorPlace [] (context ++ ' ' :: typed) = .after ⟨word, last :: front.reverse⟩ := by
    apply cursorPlace_line hnewline _ hend
    rw [htokens, hfront, List.reverse_cons, List.reverse_reverse]
  have hcommand : (engineFor .default s d).isCommandLine (context ++ ' ' :: typed) = false := by
    obtain ⟨after, hcut⟩ := Text.cut_space context typed
    rw [Engine.isCommandLine, hcut]
    exact hadmits.no_command
  have hcolumn : word.position.column - 1 = (context ++ [' ']).length := by
    have hline : '\n' ∉ context ++ [' '] := by simp [hadmits.line]
    simp only [word, Position.behind, Text.lastPart_of_not_mem hline, Nat.add_sub_cancel_left]
  have hbyte : byteOfCharacter (context ++ ' ' :: typed) (context ++ [' ']).length =
      Text.byteLength (context ++ [' ']) := by
    have hsplit : context ++ ' ' :: typed = (context ++ [' ']) ++ typed := by simp
    rw [byteOfCharacter, hsplit, List.take_left]
  have hsuggested := suggestions_word (d := d) hbuffer (by simp) hcommand hplace
    (hadmits.case rfl _) hkind h htyped
  rw [hcolumn, hbyte] at hsuggested
  exact hsuggested

/-- **What a finished statement declares is completed.**  With nothing pending, a
    variable, a method or a class of the session is suggested for any beginning of
    it that is no reserved word, alone on the line or behind a token that a name
    may follow, in place of just that beginning. -/
theorem declared_names_completed (completion : CompletionSettings) (color : Bool)
    (inputs : List Text) (d : Disk) :
    let s := ((Repl.opened completion color).after inputs).session
    s.buffer = [] → ∀ kind name typed, kind ≠ .imports → name ∈ s.names kind → typed <+: name →
      typed ≠ [] → Keyword.lookup typed = none →
        ⟨kind.offered name, 0, Text.byteLength typed, false⟩ ∈
            suggestions .default s d typed (Text.byteLength typed) ∧
          ∀ context last, AdmitsName context last →
            ⟨kind.offered name, Text.byteLength (context ++ [' ']),
              Text.byteLength (context ++ ' ' :: typed), false⟩ ∈
                suggestions .default s d (context ++ ' ' :: typed)
                  (Text.byteLength (context ++ ' ' :: typed)) := by
  intro s hbuffer kind name typed hkind h htyped hsome hfree
  have hplain : isPlainName typed = true :=
    isPlainName_prefix (names_plain completion color inputs hkind h) htyped hsome
  constructor
  · exact suggestions_alone d hbuffer hkind h hplain htyped hfree
  · intro context last hadmits
    exact suggestions_behind d hbuffer hkind h hplain htyped hfree hadmits

/-- After `def total = 1` the `to` of `1 + to` is completed, and so is `to` alone. -/
theorem declared_names_completed_total :
    let s := ((Repl.opened .default false).after ["def total = 1".toList]).session
    (⟨"total".toList, 0, 2, false⟩ : Suggestion) ∈ suggestions .default s ⟨.dir [], [], none⟩
        "to".toList (Text.byteLength "to".toList) ∧
      (⟨"total".toList, 4, 6, false⟩ : Suggestion) ∈ suggestions .default s ⟨.dir [], [], none⟩
        "1 + to".toList (Text.byteLength "1 + to".toList) := by
  have hadmits : AdmitsName "1 +".toList ⟨.operator, "+".toList, ⟨1, 3⟩⟩ := {
    line := by decide +kernel
    ends := {
      read := ⟨⟨.endOfInput, [], ⟨1, 4⟩⟩, by decide +kernel⟩
      ends := by decide +kernel
      closing := ⟨"1 ".toList, by decide +kernel, by decide +kernel⟩ }
    no_name := by decide
    no_dot := rfl
    no_keyword := by simp
    no_command := by decide +kernel }
  obtain ⟨halone, hbehind⟩ := declared_names_completed .default false ["def total = 1".toList]
    ⟨.dir [], [], none⟩ (by decide +kernel) .bindings "total".toList "to".toList (by decide)
    (by decide +kernel) (by decide +kernel) (by decide) (by decide +kernel)
  exact ⟨halone, hbehind "1 +".toList _ hadmits⟩

end GroovyShell
