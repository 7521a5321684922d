import SovriAgent.SqliteLexer

/-!
# Exchanging the Literals of an SQL Text

What a lexeme takes of a text does not depend on the text that is left, but for how that
begins. So the contents of the string literals of a text can be exchanged for any others and
the lexemes of the text stay what they are everywhere else.

## Main results

* `lexeme_local`: the lexeme at the front of a text, when what is left is replaced.
* `readQuoted_escape`: a text with its quotes doubled is read back.
* `exists_text`: whatever the contents of the literals are to be, there is a text.
-/

namespace Sqlite

/-! ### How a text begins -/

/-- Two texts begin with the same character, and with the same second one after a colon. -/
structure BeginAlike (text text' : List Char) : Prop where
  head : text'.head? = text.head?
  second : text.head? = some ':' → text'.tail.head? = text.tail.head?

/-- Texts that begin with the same character do so after anything. -/
theorem head?_append_congr {text text' : List Char} (h : text'.head? = text.head?)
    (taken : List Char) : (taken ++ text').head? = (taken ++ text).head? := by
  rw [List.head?_append, List.head?_append, h]

/-- Texts that begin alike do so after anything. -/
theorem BeginAlike.append {text text' : List Char} (h : BeginAlike text text')
    (taken : List Char) : BeginAlike (taken ++ text) (taken ++ text') := by
  refine ⟨head?_append_congr h.head taken, fun hcolon => ?_⟩
  rcases taken with _ | ⟨c, taken⟩
  · exact h.second hcolon
  · exact head?_append_congr h.head taken

/-- A text that begins as an empty one is empty. -/
theorem eq_nil_of_head? {text : List Char} (h : text.head? = none) : text = [] :=
  List.head?_eq_none_iff.mp h

/-! ### What the readers take -/

/-- The longest prefix with a property depends on the first character after it only. -/
theorem takeWhile_local {p : Char → Bool} (text : List Char) {rest : List Char}
    (h : rest.head? = (text.dropWhile p).head?) :
    (text.takeWhile p ++ rest).takeWhile p = text.takeWhile p ∧
      (text.takeWhile p ++ rest).dropWhile p = rest := by
  have hall : ∀ c ∈ text.takeWhile p, p c = true := fun c hc => List.mem_takeWhile_imp hc
  have hend : ∀ c, rest.head? = some c → p c = false := by
    intro c hc
    have hnot := List.head?_dropWhile_not p text
    rw [← h, hc] at hnot
    exact hnot
  rw [List.takeWhile_append_of_pos hall, List.dropWhile_append_of_pos hall]
  rcases rest with _ | ⟨c, rest⟩
  · exact ⟨List.append_nil _, rfl⟩
  · have hc : ¬ p c = true := by
      rw [hend c rfl]
      exact Bool.false_ne_true
    rw [List.takeWhile_cons_of_neg hc, List.dropWhile_cons_of_neg hc, List.append_nil]
    exact ⟨rfl, rfl⟩

/-- What a block comment takes does not depend on what follows, up to its first character. -/
theorem readBlockComment_local (text : List Char) :
    ∃ taken, text = taken ++ (readBlockComment text).2 ∧
      ∀ rest, rest.head? = (readBlockComment text).2.head? →
        readBlockComment (taken ++ rest) = ((readBlockComment text).1, rest) := by
  fun_induction readBlockComment text with
  | case1 =>
      refine ⟨[], rfl, fun rest h => ?_⟩
      rw [eq_nil_of_head? h]
      rfl
  | case2 c =>
      refine ⟨[c], rfl, fun rest h => ?_⟩
      rw [eq_nil_of_head? h]
      rfl
  | case3 c d text hclose =>
      refine ⟨[c, d], rfl, fun rest _ => ?_⟩
      rw [List.cons_append, List.cons_append, List.nil_append, readBlockComment, if_pos hclose]
  | case4 c d text hopen found ih =>
      obtain ⟨taken, heq, hlocal⟩ := ih
      refine ⟨c :: taken, by rw [List.cons_append, ← heq], fun rest h => ?_⟩
      have hhead := head?_append_congr h taken
      rw [← heq] at hhead
      obtain ⟨tail, htail⟩ := List.head?_eq_some_iff.mp hhead
      have hread := hlocal rest h
      rw [htail] at hread
      rw [List.cons_append, htail, readBlockComment, if_neg hopen, hread]

/-- What a quoted token takes does not depend on what follows, up to its first character. -/
theorem readQuoted_local {close : Char} {text content left : List Char}
    (h : readQuoted close text = some (content, left)) :
    ∃ taken, text = taken ++ left ∧ ∀ rest, rest.head? = left.head? →
      readQuoted close (taken ++ rest) = some (content, rest) := by
  fun_induction readQuoted close text generalizing content with
  | case1 => cases h
  | case2 =>
      obtain ⟨rfl, rfl⟩ := Prod.mk.inj (Option.some.inj h)
      refine ⟨[close], rfl, fun rest hrest => ?_⟩
      rw [eq_nil_of_head? hrest, List.append_nil, readQuoted, if_pos rfl]
  | case3 => cases h
  | case4 d text hdouble ih =>
      obtain ⟨found, hfound, heq⟩ := Option.map_eq_some_iff.mp h
      obtain ⟨rfl, rfl⟩ := Prod.mk.inj heq
      obtain ⟨taken, heq, hlocal⟩ := ih hfound
      refine ⟨close :: d :: taken, by rw [heq]; rfl, fun rest hrest => ?_⟩
      rw [List.cons_append, List.cons_append, readQuoted, if_pos rfl, if_pos hdouble,
        hlocal rest hrest]
      rfl
  | case5 d text hdouble =>
      obtain ⟨rfl, rfl⟩ := Prod.mk.inj (Option.some.inj h)
      refine ⟨[close], rfl, fun rest hrest => ?_⟩
      obtain ⟨tail, rfl⟩ := List.head?_eq_some_iff.mp hrest
      rw [List.singleton_append, readQuoted, if_pos rfl, if_neg hdouble]
  | case6 c d text hclose ih =>
      obtain ⟨found, hfound, heq⟩ := Option.map_eq_some_iff.mp h
      obtain ⟨rfl, rfl⟩ := Prod.mk.inj heq
      obtain ⟨taken, heq, hlocal⟩ := ih hfound
      refine ⟨c :: taken, by rw [heq]; rfl, fun rest hrest => ?_⟩
      have hhead := head?_append_congr hrest taken
      rw [← heq] at hhead
      obtain ⟨tail, htail⟩ := List.head?_eq_some_iff.mp hhead
      have hread := hlocal rest hrest
      rw [htail] at hread
      rw [List.cons_append, htail, readQuoted, if_neg hclose, hread]
      rfl

/-- A character of a name belongs to the name of the variable. -/
theorem readVariableName_of_isIdChar {c : Char} (h : isIdChar c = true) (text : List Char) :
    readVariableName (c :: text) =
      (c :: (readVariableName text).1, (readVariableName text).2) := by
  rcases text with _ | ⟨d, text⟩
  · simp [readVariableName, h]
  · rw [readVariableName, if_pos h]

/-- A name stops where neither a character of a word nor two colons follow. -/
theorem readVariableName_stop {c : Char} {text : List Char} (hid : ¬ isIdChar c = true)
    (hcolons : ¬ (c = ':' ∧ text.head? = some ':')) :
    readVariableName (c :: text) = ([], c :: text) := by
  rcases text with _ | ⟨d, text⟩
  · rw [readVariableName, if_neg hid]
  · rw [readVariableName, if_neg hid, if_neg fun h => hcolons ⟨h.1, congrArg some h.2⟩]

/-- The name of a variable depends on how the rest begins only. -/
theorem readVariableName_local (text : List Char) {rest : List Char}
    (h : BeginAlike (readVariableName text).2 rest) :
    (readVariableName text).1 ++ (readVariableName text).2 = text ∧
      readVariableName ((readVariableName text).1 ++ rest) = ((readVariableName text).1, rest) := by
  fun_induction readVariableName text with
  | case1 =>
      rw [eq_nil_of_head? h.head]
      exact ⟨rfl, rfl⟩
  | case2 c hid =>
      rw [eq_nil_of_head? h.head, List.append_nil, readVariableName_of_isIdChar hid]
      exact ⟨rfl, rfl⟩
  | case3 c hid =>
      obtain ⟨tail, rfl⟩ := List.head?_eq_some_iff.mp h.head
      refine ⟨rfl, readVariableName_stop hid ?_⟩
      rintro ⟨rfl, htail⟩
      have hsecond := h.second rfl
      rw [List.tail_cons, htail] at hsecond
      cases hsecond
  | case4 c d text hid found ih =>
      obtain ⟨heq, hread⟩ := ih h
      refine ⟨by rw [List.cons_append, heq], ?_⟩
      rw [List.cons_append, readVariableName_of_isIdChar hid, hread]
  | case5 c d text hid hcolons found ih =>
      obtain ⟨heq, hread⟩ := ih h
      refine ⟨by rw [List.cons_append, List.cons_append, heq], ?_⟩
      rw [List.cons_append, List.cons_append, readVariableName, if_neg hid, if_pos hcolons, hread]
  | case6 c d text hid hcolons =>
      obtain ⟨tail, rfl⟩ := List.head?_eq_some_iff.mp h.head
      refine ⟨rfl, readVariableName_stop hid ?_⟩
      rintro ⟨rfl, htail⟩
      have hsecond := h.second rfl
      rw [List.tail_cons, htail] at hsecond
      exact hcolons ⟨rfl, (Option.some.inj hsecond).symm⟩

/-- The suffix of a variable depends on the first character after it only. -/
theorem readSuffix_local (text : List Char) {rest : List Char}
    (h : rest.head? = (readSuffix text).2.head?) :
    (readSuffix text).1 ++ (readSuffix text).2 = text ∧
      readSuffix ((readSuffix text).1 ++ rest) = ((readSuffix text).1, rest) := by
  rcases text with _ | ⟨c, text⟩
  · rw [eq_nil_of_head? h]
    exact ⟨rfl, rfl⟩
  · by_cases hparen : c = '('
    · subst hparen
      have hsplit := List.takeWhile_append_dropWhile (p := inSuffix) (l := text)
      by_cases hclose : (text.dropWhile inSuffix).head? = some ')'
      · obtain ⟨after, hafter⟩ := List.head?_eq_some_iff.mp hclose
        have hread : readSuffix ('(' :: text) = ('(' :: text.takeWhile inSuffix ++ [')'], after) := by
          rw [readSuffix, if_pos rfl]
          dsimp only
          rw [if_pos hclose, hafter, List.tail_cons]
        have hnext : (')' :: rest).head? = (text.dropWhile inSuffix).head? := hclose.symm
        obtain ⟨htake, hdrop⟩ := takeWhile_local text hnext
        rw [hread]
        dsimp only
        refine ⟨?_, ?_⟩
        · rw [List.append_assoc, List.singleton_append, ← hafter, List.cons_append, hsplit]
        · rw [List.append_assoc, List.singleton_append, List.cons_append, readSuffix, if_pos rfl]
          dsimp only
          rw [htake, hdrop, List.head?_cons, if_pos rfl, List.tail_cons]
      · have hread : readSuffix ('(' :: text) =
            ('(' :: text.takeWhile inSuffix, text.dropWhile inSuffix) := by
          rw [readSuffix, if_pos rfl]
          dsimp only
          rw [if_neg hclose]
        rw [hread] at h ⊢
        obtain ⟨htake, hdrop⟩ := takeWhile_local text h
        dsimp only at h ⊢
        refine ⟨by rw [List.cons_append, hsplit], ?_⟩
        rw [List.cons_append, readSuffix, if_pos rfl]
        dsimp only
        rw [htake, hdrop, if_neg (h ▸ hclose)]
    · have hread : readSuffix (c :: text) = ([], c :: text) := by rw [readSuffix, if_neg hparen]
      rw [hread] at h ⊢
      obtain ⟨tail, rfl⟩ := List.head?_eq_some_iff.mp h
      refine ⟨rfl, ?_⟩
      rw [List.nil_append, readSuffix, if_neg hparen]

/-- What a variable takes depends on how the rest begins only. -/
theorem readVariable_local (c : Char) (text : List Char) :
    ∃ taken, text = taken ++ (readVariable c text).2 ∧
      ∀ rest, BeginAlike (readVariable c text).2 rest →
        readVariable c (taken ++ rest) = ((readVariable c text).1, rest) := by
  by_cases hname : (readVariableName text).1.any isIdChar = true
  · have hread : readVariable c text =
        (c :: (readVariableName text).1 ++ (readSuffix (readVariableName text).2).1,
          (readSuffix (readVariableName text).2).2) := by
      rw [readVariable]
      dsimp only
      rw [if_pos hname]
    rw [hread]
    dsimp only
    refine ⟨(readVariableName text).1 ++ (readSuffix (readVariableName text).2).1, ?_,
      fun rest h => ?_⟩
    · rw [List.append_assoc, (readSuffix_local (readVariableName text).2 rfl).1,
        (readVariableName_local text ⟨rfl, fun _ => rfl⟩).1]
    · obtain ⟨hsuffix, hrest⟩ := readSuffix_local _ h.head
      have halike := h.append (readSuffix (readVariableName text).2).1
      rw [hsuffix] at halike
      rw [List.append_assoc, readVariable]
      dsimp only
      rw [(readVariableName_local text halike).2, if_pos hname, hrest]
  · have hread : readVariable c text =
        (c :: (readVariableName text).1, (readVariableName text).2) := by
      rw [readVariable]
      dsimp only
      rw [if_neg hname]
    rw [hread]
    dsimp only
    refine ⟨(readVariableName text).1, ?_, fun rest h => ?_⟩
    · exact (readVariableName_local text ⟨rfl, fun _ => rfl⟩).1.symm
    · rw [readVariable]
      dsimp only
      rw [(readVariableName_local text h).2, if_neg hname]

/-! ### What a lexeme takes -/

/-- **A lexeme** depends on what is left only by how that begins. -/
theorem lexeme_local (c : Char) (text : List Char) :
    ∃ taken, text = taken ++ (lexeme c text).2 ∧
      ∀ rest, BeginAlike (lexeme c text).2 rest →
        lexeme c (taken ++ rest) = ((lexeme c text).1, rest) := by
  by_cases hspace : isSpace c = true ∨ c = byteOrderMark
  · have hread : ∀ text, lexeme c text = (.space, text) := fun text => by
      rw [lexeme, if_pos hspace]
    rw [hread]
    exact ⟨[], rfl, fun rest _ => hread rest⟩
  by_cases hline : c = '-' ∧ text.head? = some '-'
  · obtain ⟨tail, rfl⟩ := List.head?_eq_some_iff.mp hline.2
    have hread : ∀ text, lexeme c ('-' :: text) =
        (.lineComment (text.takeWhile (· ≠ '\n')), text.dropWhile (· ≠ '\n')) := fun text => by
      rw [lexeme, if_neg hspace, if_pos ⟨hline.1, rfl⟩, List.tail_cons]
    rw [hread]
    refine ⟨'-' :: tail.takeWhile (· ≠ '\n'), ?_, fun rest h => ?_⟩
    · rw [List.cons_append, List.takeWhile_append_dropWhile]
    · obtain ⟨htake, hdrop⟩ := takeWhile_local tail h.head
      rw [List.cons_append, hread, htake, hdrop]
  by_cases hblock : c = '/' ∧ text.head? = some '*'
  · obtain ⟨tail, rfl⟩ := List.head?_eq_some_iff.mp hblock.2
    have hread : ∀ text, lexeme c ('*' :: text) =
        (.blockComment (readBlockComment text).1, (readBlockComment text).2) := fun text => by
      rw [lexeme, if_neg hspace, if_neg (by simp), if_pos ⟨hblock.1, rfl⟩, List.tail_cons]
    obtain ⟨taken, heq, hlocal⟩ := readBlockComment_local tail
    rw [hread]
    refine ⟨'*' :: taken, by rw [List.cons_append, ← heq], fun rest h => ?_⟩
    rw [List.cons_append, hread, hlocal rest h.head]
  -- the first character decides, and what is left begins as before
  have hkeep : ∀ text' : List Char, text'.head? = text.head? →
      ¬ (c = '-' ∧ text'.head? = some '-') ∧ ¬ (c = '/' ∧ text'.head? = some '*') := by
    intro text' htext
    rw [htext]
    exact ⟨hline, hblock⟩
  rcases hclosing : closing c with _ | close
  · have hother : ∀ text' : List Char, text'.head? = text.head? → lexeme c text' =
        if c = '.' then (.dot, text')
        else if c = ';' then (.semicolon, text')
        else if startsVariable c then
          (.variable (readVariable c text').1, (readVariable c text').2)
        else if isIdChar c then (.word (c :: text'.takeWhile isIdChar), text'.dropWhile isIdChar)
        else (.other c, text') := by
      intro text' htext
      obtain ⟨hline', hblock'⟩ := hkeep text' htext
      rw [lexeme, if_neg hspace, if_neg hline', if_neg hblock', hclosing]
    rw [hother text rfl]
    split
    · next hdot =>
        refine ⟨[], rfl, fun rest h => ?_⟩
        rw [List.nil_append, hother rest h.head, if_pos hdot]
    · next hdot =>
      split
      · next hsemicolon =>
          refine ⟨[], rfl, fun rest h => ?_⟩
          rw [List.nil_append, hother rest h.head, if_neg hdot, if_pos hsemicolon]
      · next hsemicolon =>
        split
        · next hvariable =>
            obtain ⟨taken, heq, hlocal⟩ := readVariable_local c text
            refine ⟨taken, heq, fun rest h => ?_⟩
            have hhead := head?_append_congr h.head taken
            dsimp only at hhead
            rw [← heq] at hhead
            rw [hother _ hhead, if_neg hdot, if_neg hsemicolon, if_pos hvariable, hlocal rest h]
        · next hvariable =>
          split
          · next hid =>
              refine ⟨text.takeWhile isIdChar, List.takeWhile_append_dropWhile.symm,
                fun rest h => ?_⟩
              have hhead := head?_append_congr h.head (text.takeWhile isIdChar)
              dsimp only at hhead
              rw [List.takeWhile_append_dropWhile] at hhead
              obtain ⟨htake, hdrop⟩ := takeWhile_local text h.head
              rw [hother _ hhead, if_neg hdot, if_neg hsemicolon, if_neg hvariable, if_pos hid,
                htake, hdrop]
          · next hid =>
              refine ⟨[], rfl, fun rest h => ?_⟩
              rw [List.nil_append, hother rest h.head, if_neg hdot, if_neg hsemicolon,
                if_neg hvariable, if_neg hid]
  · have hquoted : ∀ text' : List Char, text'.head? = text.head? → ∀ content rest,
        readQuoted close text' = some (content, rest) →
          lexeme c text' = (.quoted c content, rest) := by
      intro text' htext content rest hread
      obtain ⟨hline', hblock'⟩ := hkeep text' htext
      rw [lexeme, if_neg hspace, if_neg hline', if_neg hblock', hclosing]
      dsimp only
      rw [hread]
    rcases hread : readQuoted close text with _ | ⟨content, left⟩
    · have hlexeme : lexeme c text = (.unterminated c text, []) := by
        rw [lexeme, if_neg hspace, if_neg hline, if_neg hblock, hclosing]
        dsimp only
        rw [hread]
      rw [hlexeme]
      refine ⟨text, (List.append_nil text).symm, fun rest h => ?_⟩
      rw [eq_nil_of_head? h.head, List.append_nil, hlexeme]
    · obtain ⟨taken, heq, hlocal⟩ := readQuoted_local hread
      rw [hquoted text rfl content left hread]
      refine ⟨taken, heq, fun rest h => ?_⟩
      have hhead := head?_append_congr h.head taken
      dsimp only at hhead
      rw [← heq] at hhead
      exact hquoted _ hhead content rest (hlocal rest h.head)

/-! ### Literals -/

/-- A text with its quotes doubled. -/
def escape (content : List Char) : List Char :=
  content.flatMap fun c => if c = apostrophe then [c, c] else [c]

/-- An escaped content is read back as it was. -/
theorem readQuoted_escape (content : List Char) {rest : List Char}
    (h : rest.head? ≠ some apostrophe) :
    readQuoted apostrophe (escape content ++ apostrophe :: rest) = some (content, rest) := by
  induction content with
  | nil =>
      rw [escape, List.flatMap_nil, List.nil_append]
      rcases rest with _ | ⟨d, rest⟩
      · rfl
      · rw [readQuoted, if_pos rfl, if_neg fun hd => h (congrArg some hd.2)]
  | cons c content ih =>
      rw [escape, List.flatMap_cons, List.append_assoc]
      change readQuoted apostrophe (_ ++ (escape content ++ apostrophe :: rest)) = _
      split
      · next hquote =>
          subst hquote
          rw [List.cons_append, List.singleton_append, readQuoted, if_pos rfl,
            if_pos ⟨by decide, rfl⟩, ih]
          rfl
      · next hquote =>
          obtain ⟨d, tail, htail⟩ : ∃ d tail, escape content ++ apostrophe :: rest = d :: tail :=
            List.exists_cons_of_ne_nil (by simp)
          rw [htail] at ih
          rw [List.singleton_append, htail, readQuoted, if_neg hquote, ih]
          rfl

/-- No quote follows a quoted text that ends with one. -/
theorem head?_readQuoted {close : Char} {text content left : List Char} (hclose : close ≠ ']')
    (h : readQuoted close text = some (content, left)) : left.head? ≠ some close := by
  fun_induction readQuoted close text generalizing content with
  | case1 => cases h
  | case2 =>
      obtain ⟨-, rfl⟩ := Prod.mk.inj (Option.some.inj h)
      simp
  | case3 => cases h
  | case4 d text hdouble ih =>
      obtain ⟨found, hfound, heq⟩ := Option.map_eq_some_iff.mp h
      obtain ⟨-, rfl⟩ := Prod.mk.inj heq
      exact ih hfound
  | case5 d text hdouble =>
      obtain ⟨-, rfl⟩ := Prod.mk.inj (Option.some.inj h)
      exact fun heq => hdouble ⟨hclose, Option.some.inj heq⟩
  | case6 c d text hne ih =>
      obtain ⟨found, hfound, heq⟩ := Option.map_eq_some_iff.mp h
      obtain ⟨-, rfl⟩ := Prod.mk.inj heq
      exact ih hfound

/-- A quote that a text closes starts a literal. -/
theorem lexeme_apostrophe {text content left : List Char}
    (h : readQuoted apostrophe text = some (content, left)) :
    lexeme apostrophe text = (.quoted apostrophe content, left) := by
  have hclosing : closing apostrophe = some apostrophe := rfl
  rw [lexeme, if_neg (by decide), if_neg fun hd => absurd hd.1 (by decide),
    if_neg fun hd => absurd hd.1 (by decide), hclosing]
  dsimp only
  rw [h]

/-- A lexeme that is a literal is a quote and what is read up to the closing one. -/
theorem readQuoted_of_literal {c : Char} {text content : List Char}
    (h : (lexeme c text).1 = .quoted apostrophe content) :
    c = apostrophe ∧ readQuoted apostrophe text = some (content, (lexeme c text).2) := by
  revert h
  rw [lexeme]
  split
  · exact fun h => by cases h
  · split
    · exact fun h => by cases h
    · split
      · exact fun h => by cases h
      · split
        · next close hclosing =>
            split
            · next found left hread =>
                intro h
                obtain ⟨rfl, rfl⟩ := Lexeme.quoted.inj h
                have hclose : closing apostrophe = some apostrophe := rfl
                obtain rfl := Option.some.inj (hclose.symm.trans hclosing)
                exact ⟨rfl, hread⟩
            · exact fun h => by cases h
        · split
          · exact fun h => by cases h
          · split
            · exact fun h => by cases h
            · split
              · exact fun h => by cases h
              · split
                · exact fun h => by cases h
                · exact fun h => by cases h

/-- The same lexeme, or two literals. -/
inductive SameKind : Lexeme → Lexeme → Prop
  | same (lexeme : Lexeme) : SameKind lexeme lexeme
  | literal (content content' : List Char) :
      SameKind (.quoted apostrophe content) (.quoted apostrophe content')

/-- **Literals can be exchanged**: for any other contents of its literals a text has a text
with these contents, and with its own lexemes elsewhere. -/
theorem exists_text {text : List Char} {lexemes' : List Lexeme}
    (h : List.Forall₂ SameKind (lexemes text) lexemes') :
    ∃ text', lexemes text' = lexemes' ∧ BeginAlike text text' := by
  induction hlength : text.length using Nat.strong_induction_on generalizing text lexemes' with
  | _ n ih =>
      rcases text with _ | ⟨c, text⟩
      · cases h
        exact ⟨[], rfl, rfl, fun _ => rfl⟩
      · have hleft := length_lexeme c text
        rw [List.length_cons] at hlength
        rw [lexemes_cons] at h
        obtain ⟨first, others, hfirst, hothers, rfl⟩ := List.forall₂_cons_left_iff.mp h
        obtain ⟨rest, hrest, halike⟩ := ih (lexeme c text).2.length (by omega) hothers rfl
        generalize hkind : (lexeme c text).1 = kind at hfirst
        cases hfirst with
        | same =>
            obtain ⟨taken, heq, hlocal⟩ := lexeme_local c text
            refine ⟨c :: (taken ++ rest), ?_, ?_⟩
            · rw [lexemes_cons, hlocal rest halike, hkind, hrest]
            · have hbegin := halike.append (c :: taken)
              rw [List.cons_append, List.cons_append, ← heq] at hbegin
              exact hbegin
        | literal content content' =>
            obtain ⟨rfl, hread⟩ := readQuoted_of_literal hkind
            have hhead := head?_readQuoted (by decide) hread
            rw [← halike.head] at hhead
            refine ⟨apostrophe :: (escape content' ++ apostrophe :: rest), ?_, rfl, fun hcolon => ?_⟩
            · rw [lexemes_cons, lexeme_apostrophe (readQuoted_escape content' hhead), hrest]
            · exact absurd (Option.some.inj hcolon) (by decide)

end Sqlite
