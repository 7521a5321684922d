import SovriAgent.SignedJson

/-!
# Verification of Hostile Texts

The verifier reads an untrusted text with scanners that mix byte offsets and slices. This
module collects what keeps them from aborting on any text at all: each scanner called at a
character boundary takes only slices between character boundaries and stops at one, the
depth of the container scanner is never lowered below zero, and every turn of the member
loop moves its cursor forward to a boundary.

## Main results

* `memberLoop_succ`: the member loop is a sequence of turns.
* `memberTurn_advances`: a turn moves the cursor forward.
* `not_underflows`: the depth never underflows.
* `verification_safe`: all of it, for every text.
-/

namespace SovriAgent

/-- An offset between two characters of a text, or at one of its ends. -/
def Boundary (s : Str) (i : ℕ) : Prop :=
  ∃ pre suf, s = pre ++ suf ∧ i = byteLen pre

/-! ### Turns of the member loop -/

/-- One turn of the member loop: the cursor of the next turn, or the first and last byte
index of the value under the key. -/
def memberTurn (object memberKey : Str) (cursor : ℕ) : Scan (ℕ ⊕ (ℕ × ℕ)) := do
  let byte ← Scan.ofOption (byteAt object cursor)
  if byte = ','.toUInt8 then pure (.inl (cursor + 1))
  else if byte ≠ '"'.toUInt8 then Scan.none
  else
    let key ← compactStringAt object cursor
    let colon ← Scan.ofOption (byteAt object (key.2 + 1))
    if colon ≠ ':'.toUInt8 then Scan.none
    else
      let valueStart := key.2 + 2
      let valueEnd ← compactValueEnd object valueStart
      if key.1 = memberKey then pure (.inr (valueStart, valueEnd))
      else pure (.inl (valueEnd + 1))

theorem Scan.bind_assoc {α β γ : Type} (x : Scan α) (f : α → Scan β) (g : β → Scan γ) :
    (x >>= f >>= g) = (x >>= fun a => f a >>= g) := by
  cases x <;> rfl

/-- **The member loop is a sequence of turns.** -/
theorem memberLoop_succ {α : Type} (object memberKey : Str) (found : ℕ → ℕ → Scan α)
    (fuel cursor : ℕ) :
    memberLoop object memberKey found (fuel + 1) cursor =
      if cursor < byteLen object then
        memberTurn object memberKey cursor >>= fun turn =>
          match turn with
          | .inl next => memberLoop object memberKey found fuel next
          | .inr value => found value.1 value.2
      else Scan.none := by
  rw [memberLoop, memberTurn]
  split
  · rw [Scan.bind_assoc]
    congr 1
    funext byte
    split
    · rfl
    · split
      · rfl
      · rw [Scan.bind_assoc]
        congr 1
        funext key
        rw [Scan.bind_assoc]
        congr 1
        funext colon
        split
        · rfl
        · dsimp only
          rw [Scan.bind_assoc]
          congr 1
          funext valueEnd
          split <;> rfl
  · rfl

/-! ### Scanners at boundaries -/

theorem Scan.ofOption_ne_panic {α : Type} (o : Option α) : Scan.ofOption o ≠ .panic := by
  cases o <;> simp

theorem Scan.ofOption_eq_some {α : Type} {o : Option α} {a : α}
    (h : Scan.ofOption o = .some a) : o = Option.some a := by
  cases o with
  | none => cases h
  | some b => exact congrArg Option.some (Scan.some.inj h)

theorem boundary_append (pre mid suf : Str) : Boundary (pre ++ (mid ++ suf)) (byteLen (pre ++ mid)) :=
  ⟨pre ++ mid, suf, by simp, rfl⟩

/-- The string scanner stops at the closing quote. -/
theorem compactStringAt_safe {document : Str} {start : ℕ} (h : Boundary document start) :
    compactStringAt document start ≠ .panic ∧
      ∀ raw stop, compactStringAt document start = .some (raw, stop) →
        start < stop ∧ Boundary document stop ∧ Boundary document (stop + 1) := by
  obtain ⟨pre, s, rfl, rfl⟩ := h
  rw [compactStringAt_eq]
  refine ⟨Scan.ofOption_ne_panic _, ?_⟩
  intro raw stop hstop
  obtain ⟨⟨body, rest⟩, hscan, heq⟩ := Option.map_eq_some_iff.mp (Scan.ofOption_eq_some hstop)
  obtain ⟨rfl, rfl⟩ := Prod.mk.inj heq
  have hquote : ('"' : Char).utf8Size = 1 := rfl
  obtain rfl : s = ('"' :: body) ++ (['"'] ++ rest) := by
    cases s with
    | nil => cases hscan
    | cons c s =>
        by_cases hc : c = '"'
        · subst hc
          rw [scanString_quote] at hscan
          rw [eq_of_scanRaw hscan]
          rfl
        · rw [scanString_of_ne hc] at hscan
          cases hscan
  have hstop : byteLen pre + 1 + byteLen body = byteLen (pre ++ '"' :: body) := by
    simp only [byteLen_append, byteLen_cons, hquote]
    omega
  have hnext : byteLen pre + 1 + byteLen body + 1 =
      byteLen ((pre ++ '"' :: body) ++ ['"']) := by
    rw [byteLen_append, ← hstop]
    rfl
  refine ⟨by omega, hstop ▸ boundary_append _ _ _, ?_⟩
  rw [hnext]
  exact ⟨_, rest, by simp, rfl⟩

/-- The value scanner stops at the last byte of the value. -/
theorem compactValueEnd_safe {document : Str} {start : ℕ} (h : Boundary document start) :
    compactValueEnd document start ≠ .panic ∧
      ∀ stop, compactValueEnd document start = .some stop →
        start ≤ stop ∧ Boundary document (stop + 1) := by
  obtain ⟨pre, s, rfl, rfl⟩ := h
  rw [compactValueEnd_eq]
  refine ⟨Scan.ofOption_ne_panic _, ?_⟩
  intro stop hstop
  obtain ⟨⟨text, rest⟩, hscan, hlast⟩ := Option.map_eq_some_iff.mp (Scan.ofOption_eq_some hstop)
  obtain rfl : byteLen pre + byteLen text - 1 = stop := hlast
  obtain ⟨rfl, hne⟩ := eq_of_scanValue hscan
  have hpos := byteLen_pos hne
  refine ⟨by omega, pre ++ text, rest, by simp, ?_⟩
  rw [byteLen_append]
  omega

/-- The container scanner stops at the closing bracket. -/
theorem compactContainerEnd_safe {document : Str} {start : ℕ} (h : Boundary document start) :
    compactContainerEnd document start ≠ .panic ∧
      ∀ stop, compactContainerEnd document start = .some stop →
        start ≤ stop ∧ Boundary document (stop + 1) := by
  obtain ⟨pre, s, rfl, rfl⟩ := h
  rw [compactContainerEnd, sliceFrom_append pre s rfl, Scan.some_bind, containerEnd_eq]
  cases hscan : scanNested 0 false false s with
  | none => exact ⟨by simp, by simp⟩
  | some found =>
      obtain ⟨text, rest⟩ := found
      obtain ⟨rfl, hne⟩ := eq_of_scanNested hscan
      have hpos := byteLen_pos hne
      refine ⟨by simp, ?_⟩
      intro stop hstop
      simp only [Option.map_some, Scan.ofOption_some, Scan.some_bind, Scan.pure_eq,
        Scan.some.injEq] at hstop
      refine ⟨by omega, pre ++ text, rest, by simp, ?_⟩
      rw [byteLen_append]
      omega

/-- The byte after a boundary at which an ASCII character stands is one too. -/
theorem Boundary.succ {s : Str} {i : ℕ} (h : Boundary s i) {d : Char} (hd : d.val ≤ 127)
    (hbyte : byteAt s i = some d.toUInt8) : Boundary s (i + 1) := by
  obtain ⟨pre, suf, rfl, rfl⟩ := h
  rw [byteAt_append] at hbyte
  cases suf with
  | nil => simp at hbyte
  | cons c suf =>
      obtain rfl := (byteAt_zero_eq_ascii suf hd).mp hbyte
      refine ⟨pre ++ [c], suf, by simp, ?_⟩
      rw [byteLen_append, byteLen_cons, byteLen_nil, Char.utf8Size_eq_one_iff.mpr hd]

/-- **A turn of the member loop** never aborts, and moves the cursor forward to a boundary. -/
theorem memberTurn_advances {object : Str} (memberKey : Str) {cursor : ℕ}
    (h : Boundary object cursor) :
    memberTurn object memberKey cursor ≠ .panic ∧
      (∀ next, memberTurn object memberKey cursor = .some (.inl next) →
        cursor < next ∧ Boundary object next) ∧
      ∀ value, memberTurn object memberKey cursor = .some (.inr value) →
        cursor < value.1 ∧ value.1 ≤ value.2 ∧ Boundary object value.1 ∧
          Boundary object (value.2 + 1) := by
  unfold memberTurn
  cases hbyte : byteAt object cursor with
  | none => simp
  | some byte =>
      simp only [Scan.ofOption_some, Scan.some_bind]
      split
      · next hcomma =>
          refine ⟨by simp, ?_, by simp⟩
          intro next hnext
          obtain rfl : cursor + 1 = next := by simpa using hnext
          exact ⟨by omega, h.succ (d := ',') (by decide) (by rw [hbyte, hcomma])⟩
      · split
        · simp
        · obtain ⟨hpanic, hstring⟩ := compactStringAt_safe h
          cases hkey : compactStringAt object cursor with
          | panic => exact absurd hkey hpanic
          | none => simp
          | some key =>
              obtain ⟨hlt, -, hafter⟩ := hstring key.1 key.2 hkey
              simp only [Scan.some_bind]
              cases hcolon : byteAt object (key.2 + 1) with
              | none => simp
              | some colon =>
                  simp only [Scan.ofOption_some, Scan.some_bind]
                  split
                  · simp
                  · next hce =>
                      have hstart : Boundary object (key.2 + 2) :=
                        hafter.succ (d := ':') (by decide) (by rw [hcolon, not_not.mp hce])
                      obtain ⟨hvpanic, hvalue⟩ := compactValueEnd_safe hstart
                      cases hend : compactValueEnd object (key.2 + 2) with
                      | panic => exact absurd hend hvpanic
                      | none => simp
                      | some stop =>
                          obtain ⟨hle, hstop⟩ := hvalue stop hend
                          simp only [Scan.some_bind]
                          split
                          · refine ⟨by simp, by simp, ?_⟩
                            intro value hv
                            obtain rfl : (key.2 + 2, stop) = value := by simpa using hv
                            exact ⟨by simp only; omega, hle, hstart, hstop⟩
                          · refine ⟨by simp, ?_, by simp⟩
                            intro next hnext
                            obtain rfl : stop + 1 = next := by simpa using hnext
                            exact ⟨by omega, hstop⟩

/-! ### Depths and pairs of digits -/

/-- Whether the container scanner meets a closing bracket at depth zero. -/
def underflows : ℕ → Bool → Bool → Str → Bool
  | _, _, _, [] => false
  | depth, true, escaped, ch :: rest =>
      if escaped then underflows depth true false rest
      else if ch = '\\' then underflows depth true true rest
      else if ch = '"' then underflows depth false false rest
      else underflows depth true false rest
  | depth, false, _, ch :: rest =>
      if ch = '"' then underflows depth true false rest
      else if ch = '{' ∨ ch = '[' then underflows (depth + 1) false false rest
      else if ch = '}' ∨ ch = ']' then
        match depth with
        | 0 => true
        | 1 => false
        | depth + 2 => underflows (depth + 1) false false rest
      else underflows depth false false rest

/-- At a positive depth no closing bracket is one too many. -/
theorem not_underflows_of_pos {depth : ℕ} (hdepth : 0 < depth) (inString escaped : Bool)
    (s : Str) : underflows depth inString escaped s = false := by
  induction s generalizing depth inString escaped with
  | nil => cases inString <;> rfl
  | cons ch s ih =>
      cases inString with
      | true =>
          simp only [underflows]
          split_ifs <;> exact ih hdepth _ _
      | false =>
          simp only [underflows]
          split
          · exact ih hdepth _ _
          · split
            · exact ih (by omega) _ _
            · split
              · match depth, hdepth with
                | 1, _ => rfl
                | depth + 2, _ => exact ih (by omega) _ _
              · exact ih hdepth _ _

/-- **The depth never underflows** from an opening bracket, where every container scan starts. -/
theorem not_underflows {ch : Char} (h : ch = '{' ∨ ch = '[') (s : Str) :
    underflows 0 false false (ch :: s) = false := by
  have hquote : ch ≠ '"' := by
    rcases h with rfl | rfl <;> decide
  rw [underflows.eq_def]
  simp only [hquote, h, if_false, if_true]
  exact not_underflows_of_pos (by omega) _ _ _

/-- A checked slice is only taken between boundaries. -/
theorem boundary_of_getSlice {s value : Str} {i j : ℕ} (h : getSlice s i j = some value) :
    Boundary s i ∧ Boundary s j := by
  rw [getSlice] at h
  split at h
  · next hle =>
      obtain ⟨tail, hdrop, htake⟩ := Option.bind_eq_some_iff.mp h
      obtain ⟨pre, rfl, rfl⟩ := eq_append_of_dropBytes hdrop
      obtain ⟨rest, rfl, hlen⟩ := eq_prefix_of_takeBytes htake
      refine ⟨⟨pre, _, rfl, rfl⟩, pre ++ value, rest, by simp, ?_⟩
      rw [byteLen_append]
      omega
  · cases h

/-! ### Verification -/

/-- What holds of the scanners on a text: none aborts, wherever in the text it is called; they
stop at boundaries; the member loop advances; and the depth never underflows. -/
structure SafeScans (text : Str) : Prop where
  string : ∀ start, Boundary text start → compactStringAt text start ≠ .panic ∧
    ∀ raw stop, compactStringAt text start = .some (raw, stop) →
      start < stop ∧ Boundary text stop ∧ Boundary text (stop + 1)
  value : ∀ start, Boundary text start → compactValueEnd text start ≠ .panic ∧
    ∀ stop, compactValueEnd text start = .some stop → start ≤ stop ∧ Boundary text (stop + 1)
  container : ∀ start, Boundary text start → compactContainerEnd text start ≠ .panic ∧
    ∀ stop, compactContainerEnd text start = .some stop → start ≤ stop ∧ Boundary text (stop + 1)
  depth : ∀ pre ch s, text = pre ++ ch :: s → ch = '{' ∨ ch = '[' →
    underflows 0 false false (ch :: s) = false
  turn : ∀ memberKey cursor, Boundary text cursor → memberTurn text memberKey cursor ≠ .panic ∧
    (∀ next, memberTurn text memberKey cursor = .some (.inl next) →
      cursor < next ∧ Boundary text next) ∧
    ∀ value, memberTurn text memberKey cursor = .some (.inr value) →
      cursor < value.1 ∧ value.1 ≤ value.2 ∧ Boundary text value.1 ∧ Boundary text (value.2 + 1)
  objectMember : ∀ memberKey, compactObjectMember text memberKey ≠ .panic
  stringMember : ∀ memberKey, compactObjectStringMember text memberKey ≠ .panic
  intMember : ∀ memberKey, compactObjectIntMember text memberKey ≠ .panic
  signed : reconstructSigned text ≠ .panic
  pairs : ∀ index, hexByte text index ≠ none → Boundary text index ∧ Boundary text (index + 2)

theorem safeScans (text : Str) : SafeScans text where
  string _ h := compactStringAt_safe h
  value _ h := compactValueEnd_safe h
  container _ h := compactContainerEnd_safe h
  depth _ _ s _ h := not_underflows h s
  turn memberKey _ h := memberTurn_advances memberKey h
  objectMember memberKey := by
    rw [compactObjectMember_eq]
    exact Scan.ofOption_ne_panic _
  stringMember memberKey := by
    rw [compactObjectStringMember_eq]
    exact Scan.ofOption_ne_panic _
  intMember memberKey := by
    rw [compactObjectIntMember_eq]
    exact Scan.ofOption_ne_panic _
  signed := by
    rw [reconstructSigned_eq]
    exact Scan.ofOption_ne_panic _
  pairs index h := by
    obtain ⟨byte, hbyte⟩ := Option.ne_none_iff_exists'.mp h
    obtain ⟨digits, hdigits, -⟩ := Option.bind_eq_some_iff.mp hbyte
    exact boundary_of_getSlice hdigits

/-- **Verification is safe on every text**: it comes to a verdict, and so do the scanners on
every text they are handed. -/
theorem verification_safe (crypto : Crypto) :
    (∀ document, verify crypto document ≠ .panic) ∧ ∀ text, SafeScans text :=
  ⟨verify_ne_panic crypto, safeScans⟩

end SovriAgent
