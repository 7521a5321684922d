import Mathlib

/-!
# Command Lines

The words after a command, read from the left: a flag takes the next word as its value, or has
its value in the same word, after a sign. A word that asks for help ends the reading, and so
does one that is nothing known.

Where no flag contains the sign, a command line is read in one way only: it is the settings it
starts with, and what stops the reading.

## Main results

* `existsUnique_reading`: every command line is settings and what stops the reading, in one way.
* `parse_eq_some_iff`, `parse_eq_none_iff`, `parse_eq_error_iff`: what a parser makes of it.
-/

namespace CommandLine

variable {χ ι ε σ : Type} [DecidableEq χ]

/-- The options of a command, in the order in which they are tried, their flags, the words that
ask for help, and the sign between a flag and its value. -/
structure Grammar (χ ι : Type) where
  options : List ι
  flag : ι → List χ
  help : List (List χ)
  sign : χ

/-- What a word is. -/
inductive Role (χ ι : Type) where
  | help
  | joined (option : ι) (value : List χ)
  | flag (option : ι)
  | unknown

/-- What a word is among options. -/
def Grammar.roleAmong (g : Grammar χ ι) : List ι → List χ → Role χ ι
  | [], _ => .unknown
  | option :: options, word =>
      match (g.flag option ++ [g.sign]).isPrefixOf? word with
      | some value => .joined option value
      | none => if word = g.flag option then .flag option else g.roleAmong options word

/-- What a word is. -/
def Grammar.role (g : Grammar χ ι) (word : List χ) : Role χ ι :=
  if word ∈ g.help then .help else g.roleAmong g.options word

/-- Reads words from the left; no state is left where help is asked for. -/
def Grammar.parse (g : Grammar χ ι) (set : ι → List χ → σ → Except ε σ)
    (unknown missing : List χ → ε) : σ → List (List χ) → Except ε (Option σ)
  | state, [] => .ok (some state)
  | state, word :: words =>
      match g.role word with
      | .help => .ok none
      | .joined option value =>
          match set option value state with
          | .error e => .error e
          | .ok next => g.parse set unknown missing next words
      | .flag option =>
          match words with
          | [] => .error (missing (g.flag option))
          | value :: words =>
              match set option value state with
              | .error e => .error e
              | .ok next => g.parse set unknown missing next words
      | .unknown => .error (unknown word)

/-! ### Settings -/

/-- An option with a value, in one word or in two. -/
inductive Setting (χ ι : Type) where
  | joined (option : ι) (value : List χ)
  | separate (option : ι) (value : List χ)

def Setting.option : Setting χ ι → ι
  | .joined option _ => option
  | .separate option _ => option

def Setting.value : Setting χ ι → List χ
  | .joined _ value => value
  | .separate _ value => value

/-- The words of a setting. -/
def Grammar.words (g : Grammar χ ι) : Setting χ ι → List (List χ)
  | .joined option value => [g.flag option ++ g.sign :: value]
  | .separate option value => [g.flag option, value]

/-- Sets options one after the other. -/
def setAll (set : ι → List χ → σ → Except ε σ) : σ → List (Setting χ ι) → Except ε σ
  | state, [] => .ok state
  | state, setting :: settings =>
      match set setting.option setting.value state with
      | .error e => .error e
      | .ok next => setAll set next settings

omit [DecidableEq χ] in
theorem setAll_concat (set : ι → List χ → σ → Except ε σ) (state : σ)
    (settings : List (Setting χ ι)) (setting : Setting χ ι) :
    setAll set state (settings ++ [setting]) =
      match setAll set state settings with
      | .error e => .error e
      | .ok next => set setting.option setting.value next := by
  induction settings generalizing state with
  | nil =>
      change (match set setting.option setting.value state with
        | .error e => Except.error e
        | .ok next => .ok next) = set setting.option setting.value state
      cases set setting.option setting.value state <;> rfl
  | cons first settings ih =>
      rw [List.cons_append, setAll, setAll]
      rcases set first.option first.value state with e | next
      · rfl
      · exact ih next

/-- The value an option is last set to. -/
def lastValue [DecidableEq ι] (option : ι) (settings : List (Setting χ ι)) : Option (List χ) :=
  (settings.reverse.find? (·.option = option)).map Setting.value

omit [DecidableEq χ] in
@[simp] theorem lastValue_nil [DecidableEq ι] (option : ι) :
    lastValue option ([] : List (Setting χ ι)) = none := rfl

omit [DecidableEq χ] in
theorem lastValue_concat [DecidableEq ι] (option : ι) (settings : List (Setting χ ι))
    (setting : Setting χ ι) : lastValue option (settings ++ [setting]) =
      if setting.option = option then some setting.value else lastValue option settings := by
  rw [lastValue, List.reverse_concat, List.find?_cons]
  by_cases hoption : setting.option = option
  · simp [hoption]
  · simp [hoption, lastValue]

/-! ### Words that can be told apart -/

/-- Every option is tried, no flag contains the sign, and flags and words that ask for help are
all different. -/
structure Grammar.Unambiguous (g : Grammar χ ι) : Prop where
  complete : ∀ option, option ∈ g.options
  plain : ∀ option, g.sign ∉ g.flag option
  apart : Function.Injective g.flag
  help : ∀ word ∈ g.help, g.sign ∉ word ∧ ∀ option, word ≠ g.flag option

variable {g : Grammar χ ι}

omit [DecidableEq χ] in
/-- A grammar with few options is checked by going through them. -/
theorem Grammar.Unambiguous.of_options (hcomplete : ∀ option, option ∈ g.options)
    (hplain : ∀ flag ∈ g.options.map g.flag, g.sign ∉ flag)
    (hnodup : (g.options.map g.flag).Nodup)
    (hhelp : ∀ word ∈ g.help, g.sign ∉ word ∧ word ∉ g.options.map g.flag) : g.Unambiguous where
  complete := hcomplete
  plain option := hplain _ (List.mem_map_of_mem (hcomplete option))
  apart option option' h :=
    List.inj_on_of_nodup_map hnodup (hcomplete option) (hcomplete option') h
  help word hword := by
    refine ⟨(hhelp word hword).1, fun option heq => (hhelp word hword).2 ?_⟩
    rw [heq]
    exact List.mem_map_of_mem (hcomplete option)

omit [DecidableEq χ] in
/-- A list is cut at its first sign in one way only. -/
theorem append_sign_inj {sign : χ} {xs ys vs ws : List χ} (hxs : sign ∉ xs) (hys : sign ∉ ys)
    (h : xs ++ sign :: vs = ys ++ sign :: ws) : xs = ys ∧ vs = ws := by
  induction xs generalizing ys with
  | nil =>
      cases ys with
      | nil => exact ⟨rfl, (List.cons.inj h).2⟩
      | cons y ys => exact absurd ((List.cons.inj h).1 ▸ List.mem_cons_self) hys
  | cons x xs ih =>
      cases ys with
      | nil => exact absurd ((List.cons.inj h).1 ▸ List.mem_cons_self) hxs
      | cons y ys =>
          obtain ⟨rfl, hrest⟩ := List.cons.inj h
          obtain ⟨rfl, hvalues⟩ := ih (fun hmem => hxs (List.mem_cons_of_mem _ hmem))
            (fun hmem => hys (List.mem_cons_of_mem _ hmem)) hrest
          exact ⟨rfl, hvalues⟩

theorem isPrefixOf?_eq_some_iff {xs ys zs : List χ} :
    xs.isPrefixOf? ys = some zs ↔ ys = xs ++ zs := by
  induction xs generalizing ys with
  | nil => simp [List.isPrefixOf?, eq_comm]
  | cons x xs ih =>
      cases ys with
      | nil => simp [List.isPrefixOf?]
      | cons y ys =>
          rw [List.isPrefixOf?]
          by_cases hxy : x = y
          · simp [hxy, ih]
          · simp [hxy, Ne.symm hxy]

/-- A word with a joined value. -/
theorem Grammar.Unambiguous.role_joined (h : g.Unambiguous) (option : ι) (value : List χ) :
    g.role (g.flag option ++ g.sign :: value) = .joined option value := by
  have hsign : g.sign ∈ g.flag option ++ g.sign :: value :=
    List.mem_append_right _ List.mem_cons_self
  have hamong : ∀ options, option ∈ options →
      g.roleAmong options (g.flag option ++ g.sign :: value) = .joined option value := by
    intro options hmem
    induction options with
    | nil => cases hmem
    | cons first options ih =>
        rw [Grammar.roleAmong]
        rcases hprefix : (g.flag first ++ [g.sign]).isPrefixOf?
          (g.flag option ++ g.sign :: value) with _ | value'
        · have hne : g.flag option ++ g.sign :: value ≠ g.flag first := fun heq =>
            h.plain first (heq ▸ hsign)
          rw [if_neg hne]
          refine ih ((List.mem_cons.mp hmem).resolve_left fun heq => ?_)
          subst heq
          rw [Option.eq_none_iff_forall_ne_some] at hprefix
          exact hprefix value (isPrefixOf?_eq_some_iff.mpr (by simp))
        · have heq := isPrefixOf?_eq_some_iff.mp hprefix
          rw [List.append_assoc, List.singleton_append] at heq
          obtain ⟨hflag, rfl⟩ := append_sign_inj (h.plain option) (h.plain first) heq
          obtain rfl := h.apart hflag
          rfl
  have hhelp : g.flag option ++ g.sign :: value ∉ g.help := fun hmem => (h.help _ hmem).1 hsign
  rw [Grammar.role, if_neg hhelp]
  exact hamong g.options (h.complete option)

/-- A word that is a flag. -/
theorem Grammar.Unambiguous.role_flag (h : g.Unambiguous) (option : ι) :
    g.role (g.flag option) = .flag option := by
  have hamong : ∀ options, option ∈ options →
      g.roleAmong options (g.flag option) = .flag option := by
    intro options hmem
    induction options with
    | nil => cases hmem
    | cons first options ih =>
        have hprefix : (g.flag first ++ [g.sign]).isPrefixOf? (g.flag option) = none := by
          rw [Option.eq_none_iff_forall_ne_some]
          intro value hvalue
          have heq := isPrefixOf?_eq_some_iff.mp hvalue
          exact h.plain option (heq ▸ by simp)
        rw [Grammar.roleAmong, hprefix]
        by_cases hfirst : g.flag option = g.flag first
        · rw [if_pos hfirst, h.apart hfirst]
        · rw [if_neg hfirst]
          exact ih ((List.mem_cons.mp hmem).resolve_left fun heq => hfirst (heq ▸ rfl))
  have hhelp : g.flag option ∉ g.help := fun hmem => (h.help _ hmem).2 option rfl
  rw [Grammar.role, if_neg hhelp]
  exact hamong g.options (h.complete option)

/-- Among options, only a joined value is read as one, and only a flag as one. -/
theorem Grammar.word_of_roleAmong (g : Grammar χ ι) (options : List ι) (word : List χ) :
    (∀ option value, g.roleAmong options word = .joined option value →
      word = g.flag option ++ g.sign :: value) ∧
    (∀ option, g.roleAmong options word = .flag option → word = g.flag option) ∧
    g.roleAmong options word ≠ .help := by
  induction options with
  | nil =>
      refine ⟨?_, ?_, ?_⟩
      · intro _ _ h
        cases h
      · intro _ h
        cases h
      · intro h
        cases h
  | cons first options ih =>
      rw [Grammar.roleAmong]
      rcases hprefix : (g.flag first ++ [g.sign]).isPrefixOf? word with _ | value'
      · by_cases hflag : word = g.flag first
        · simp only [if_pos hflag]
          refine ⟨?_, ?_, ?_⟩
          · intro _ _ h
            cases h
          · intro _ h
            cases h
            exact hflag
          · intro h
            cases h
        · simp only [if_neg hflag]
          exact ih
      · have heq := isPrefixOf?_eq_some_iff.mp hprefix
        rw [List.append_assoc, List.singleton_append] at heq
        refine ⟨?_, ?_, ?_⟩
        · intro _ _ h
          cases h
          exact heq
        · intro _ h
          cases h
        · intro h
          cases h

theorem Grammar.role_eq_help_iff {word : List χ} : g.role word = .help ↔ word ∈ g.help := by
  rw [Grammar.role]
  split
  · next hmem => exact iff_of_true rfl hmem
  · next hmem => exact iff_of_false (g.word_of_roleAmong g.options word).2.2 hmem

/-! ### Readings -/

/-- What stops the reading: the end, a word that asks for help, an unknown word, or a flag
without a value. -/
inductive Grammar.Stops (g : Grammar χ ι) : List (List χ) → Prop where
  | finished : g.Stops []
  | help {word : List χ} (rest : List (List χ)) (h : g.role word = .help) : g.Stops (word :: rest)
  | unknown {word : List χ} (rest : List (List χ)) (h : g.role word = .unknown) :
      g.Stops (word :: rest)
  | missing (option : ι) : g.Stops [g.flag option]

/-- **Every command line is settings and what stops the reading.** -/
theorem exists_reading (g : Grammar χ ι) (words : List (List χ)) :
    ∃ (settings : List (Setting χ ι)) (rest : List (List χ)),
      words = settings.flatMap g.words ++ rest ∧ g.Stops rest := by
  induction hlength : words.length using Nat.strong_induction_on generalizing words with
  | h length ih =>
      rcases words with _ | ⟨word, words⟩
      · exact ⟨[], [], rfl, .finished⟩
      · have hlonger : words.length < length := by
          rw [← hlength]
          exact Nat.lt_succ_self _
        obtain ⟨hjoined, hflag, -⟩ := g.word_of_roleAmong g.options word
        rcases hrole : g.role word with _ | ⟨option, value⟩ | option | _
        · exact ⟨[], _, rfl, .help words hrole⟩
        · have hword : word = g.flag option ++ g.sign :: value := by
            rw [Grammar.role] at hrole
            split at hrole
            · cases hrole
            · exact hjoined option value hrole
          obtain ⟨settings, rest, rfl, hstops⟩ := ih _ hlonger words rfl
          exact ⟨.joined option value :: settings, rest, by simp [Grammar.words, hword], hstops⟩
        · have hword : word = g.flag option := by
            rw [Grammar.role] at hrole
            split at hrole
            · cases hrole
            · exact hflag option hrole
          rcases words with _ | ⟨value, words⟩
          · exact ⟨[], _, by rw [hword]; rfl, .missing option⟩
          · obtain ⟨settings, rest, rfl, hstops⟩ :=
              ih _ (lt_trans (Nat.lt_succ_self _) hlonger) words rfl
            exact ⟨.separate option value :: settings, rest, by simp [Grammar.words, hword], hstops⟩
        · exact ⟨[], _, rfl, .unknown words hrole⟩

/-- What stops the reading is no setting. -/
theorem Grammar.Unambiguous.not_stops (h : g.Unambiguous) (setting : Setting χ ι)
    (rest : List (List χ)) : ¬ g.Stops (g.words setting ++ rest) := by
  intro hstops
  cases setting with
  | joined option value =>
      have hrole := h.role_joined option value
      generalize hword : g.flag option ++ g.sign :: value = word at hrole
      rw [Grammar.words, hword] at hstops
      cases hstops with
      | help _ hhelp =>
          rw [hrole] at hhelp
          cases hhelp
      | unknown _ hunknown =>
          rw [hrole] at hunknown
          cases hunknown
      | missing option' =>
          rw [h.role_flag] at hrole
          cases hrole
  | separate option value =>
      have hrole := h.role_flag option
      generalize hword : g.flag option = word at hrole
      rw [Grammar.words, hword] at hstops
      cases hstops with
      | help _ hhelp =>
          rw [hrole] at hhelp
          cases hhelp
      | unknown _ hunknown =>
          rw [hrole] at hunknown
          cases hunknown

omit [DecidableEq χ] in
/-- The first setting is read in one way only. -/
theorem Grammar.Unambiguous.words_inj (h : g.Unambiguous) {setting setting' : Setting χ ι}
    {rest rest' : List (List χ)} (heq : g.words setting ++ rest = g.words setting' ++ rest') :
    setting = setting' ∧ rest = rest' := by
  rcases setting with ⟨option, value⟩ | ⟨option, value⟩ <;>
    rcases setting' with ⟨option', value'⟩ | ⟨option', value'⟩
  · obtain ⟨hword, hrest⟩ := List.cons.inj heq
    obtain ⟨hflag, rfl⟩ := append_sign_inj (h.plain option) (h.plain option') hword
    rw [h.apart hflag]
    exact ⟨rfl, hrest⟩
  · obtain ⟨hword, -⟩ := List.cons.inj heq
    exact absurd (hword ▸ List.mem_append_right _ List.mem_cons_self) (h.plain option')
  · obtain ⟨hword, -⟩ := List.cons.inj heq
    exact absurd (hword.symm ▸ List.mem_append_right _ List.mem_cons_self) (h.plain option)
  · obtain ⟨hword, hmore⟩ := List.cons.inj heq
    obtain ⟨rfl, hrest⟩ := List.cons.inj hmore
    rw [h.apart hword]
    exact ⟨rfl, hrest⟩

/-- **There is one reading.** -/
theorem reading_unique (h : g.Unambiguous) {settings settings' : List (Setting χ ι)}
    {rest rest' : List (List χ)} (hstops : g.Stops rest) (hstops' : g.Stops rest')
    (heq : settings.flatMap g.words ++ rest = settings'.flatMap g.words ++ rest') :
    settings = settings' ∧ rest = rest' := by
  induction settings generalizing settings' with
  | nil =>
      cases settings' with
      | nil => exact ⟨rfl, heq⟩
      | cons setting' settings' =>
          rw [List.flatMap_nil, List.nil_append, List.flatMap_cons, List.append_assoc] at heq
          exact absurd (heq ▸ hstops) (h.not_stops _ _)
  | cons setting settings ih =>
      cases settings' with
      | nil =>
          rw [List.flatMap_nil, List.nil_append, List.flatMap_cons, List.append_assoc] at heq
          exact absurd (heq ▸ hstops') (h.not_stops _ _)
      | cons setting' settings' =>
          rw [List.flatMap_cons, List.flatMap_cons, List.append_assoc, List.append_assoc] at heq
          obtain ⟨rfl, hrest⟩ := h.words_inj heq
          obtain ⟨rfl, hsame⟩ := ih hrest
          exact ⟨rfl, hsame⟩

/-- **Every command line is read in one way.** -/
theorem Grammar.Unambiguous.existsUnique_reading (h : g.Unambiguous) (words : List (List χ)) :
    ∃! reading : List (Setting χ ι) × List (List χ),
      words = reading.1.flatMap g.words ++ reading.2 ∧ g.Stops reading.2 := by
  obtain ⟨settings, rest, rfl, hstops⟩ := exists_reading g words
  refine ⟨(settings, rest), ⟨rfl, hstops⟩, ?_⟩
  rintro ⟨settings', rest'⟩ ⟨heq, hstops'⟩
  obtain ⟨rfl, rfl⟩ := reading_unique h hstops hstops' heq
  rfl

/-! ### Parsers -/

section Parser

variable {set : ι → List χ → σ → Except ε σ} {unknown missing : List χ → ε}

/-- A parser sets the options of the settings, and goes on with what follows them. -/
theorem Grammar.Unambiguous.parse_append (h : g.Unambiguous) (state : σ)
    (settings : List (Setting χ ι)) (rest : List (List χ)) :
    g.parse set unknown missing state (settings.flatMap g.words ++ rest) =
      match setAll set state settings with
      | .error e => .error e
      | .ok next => g.parse set unknown missing next rest := by
  induction settings generalizing state with
  | nil => rfl
  | cons setting settings ih =>
      rw [List.flatMap_cons, List.append_assoc, setAll]
      rcases setting with ⟨option, value⟩ | ⟨option, value⟩
      · rw [Grammar.words, List.singleton_append, Grammar.parse, h.role_joined]
        simp only [Setting.option, Setting.value]
        rcases set option value state with e | next
        · rfl
        · exact ih next
      · rw [Grammar.words, List.cons_append, List.singleton_append, Grammar.parse, h.role_flag]
        simp only [Setting.option, Setting.value]
        rcases set option value state with e | next
        · rfl
        · exact ih next

/-- The outcome of a reading. -/
inductive Grammar.Outcome (g : Grammar χ ι) (set : ι → List χ → σ → Except ε σ)
    (unknown missing : List χ → ε) (state : σ) (settings : List (Setting χ ι)) :
    List (List χ) → Except ε (Option σ) → Prop where
  | rejected {rest : List (List χ)} {e : ε} (h : setAll set state settings = .error e) :
      g.Outcome set unknown missing state settings rest (.error e)
  | finished {next : σ} (h : setAll set state settings = .ok next) :
      g.Outcome set unknown missing state settings [] (.ok (some next))
  | help {next : σ} {word : List χ} (rest : List (List χ))
      (h : setAll set state settings = .ok next) (hhelp : g.role word = .help) :
      g.Outcome set unknown missing state settings (word :: rest) (.ok none)
  | unknown {next : σ} {word : List χ} (rest : List (List χ))
      (h : setAll set state settings = .ok next) (hunknown : g.role word = .unknown) :
      g.Outcome set unknown missing state settings (word :: rest) (.error (unknown word))
  | missing {next : σ} (option : ι) (h : setAll set state settings = .ok next) :
      g.Outcome set unknown missing state settings [g.flag option]
        (.error (missing (g.flag option)))

/-- The parser's result where the reading stops. -/
theorem Grammar.Stops.exists_outcome (h : g.Unambiguous) {rest : List (List χ)}
    (hstops : g.Stops rest) {state next : σ} {settings : List (Setting χ ι)}
    (hset : setAll set state settings = .ok next) :
    g.Outcome set unknown missing state settings rest (g.parse set unknown missing next rest) := by
  cases hstops with
  | finished => exact .finished hset
  | help rest hhelp =>
      rw [Grammar.parse, hhelp]
      exact .help rest hset hhelp
  | unknown rest hunknown =>
      rw [Grammar.parse, hunknown]
      exact .unknown rest hset hunknown
  | missing option =>
      rw [Grammar.parse, h.role_flag]
      exact .missing option hset

/-- An outcome of a reading is the parser's result. -/
theorem Grammar.Outcome.parse_eq (h : g.Unambiguous) {state : σ} {settings : List (Setting χ ι)}
    {rest : List (List χ)} {result : Except ε (Option σ)}
    (houtcome : g.Outcome set unknown missing state settings rest result) :
    g.parse set unknown missing state (settings.flatMap g.words ++ rest) = result := by
  rw [h.parse_append]
  cases houtcome with
  | rejected hset => rw [hset]
  | finished hset =>
      rw [hset]
      rfl
  | help rest hset hhelp =>
      simp only [hset]
      rw [Grammar.parse, hhelp]
  | unknown rest hset hunknown =>
      simp only [hset]
      rw [Grammar.parse, hunknown]
  | missing option hset =>
      simp only [hset]
      rw [Grammar.parse, h.role_flag]

/-- **A parser does what the reading says.** -/
theorem Grammar.Unambiguous.parse_iff (h : g.Unambiguous) {state : σ} {words : List (List χ)}
    {result : Except ε (Option σ)} :
    g.parse set unknown missing state words = result ↔
      ∃ (settings : List (Setting χ ι)) (rest : List (List χ)),
        words = settings.flatMap g.words ++ rest ∧
          g.Outcome set unknown missing state settings rest result := by
  constructor
  · rintro rfl
    obtain ⟨settings, rest, rfl, hstops⟩ := exists_reading g words
    refine ⟨settings, rest, rfl, ?_⟩
    rw [h.parse_append]
    rcases hset : setAll set state settings with e | next
    · exact .rejected hset
    · exact hstops.exists_outcome h hset
  · rintro ⟨settings, rest, rfl, houtcome⟩
    exact houtcome.parse_eq h

/-- A command line is accepted if it is settings that can be made. -/
theorem Grammar.Unambiguous.parse_eq_some_iff (h : g.Unambiguous) {state next : σ}
    {words : List (List χ)} :
    g.parse set unknown missing state words = .ok (some next) ↔
      ∃ settings : List (Setting χ ι), words = settings.flatMap g.words ∧
        setAll set state settings = .ok next := by
  rw [h.parse_iff]
  constructor
  · rintro ⟨settings, rest, rfl, houtcome⟩
    cases houtcome with
    | finished hset => exact ⟨settings, List.append_nil _, hset⟩
  · rintro ⟨settings, rfl, hset⟩
    exact ⟨settings, [], (List.append_nil _).symm, .finished hset⟩

/-- Help is asked for after settings that can be made. -/
theorem Grammar.Unambiguous.parse_eq_none_iff (h : g.Unambiguous) {state : σ}
    {words : List (List χ)} :
    g.parse set unknown missing state words = .ok none ↔
      ∃ (settings : List (Setting χ ι)) (word : List χ) (rest : List (List χ)) (next : σ),
        words = settings.flatMap g.words ++ word :: rest ∧ g.role word = .help ∧
          setAll set state settings = .ok next := by
  rw [h.parse_iff]
  constructor
  · rintro ⟨settings, rest, rfl, houtcome⟩
    cases houtcome with
    | help rest hset hhelp => exact ⟨settings, _, rest, _, rfl, hhelp, hset⟩
  · rintro ⟨settings, word, rest, next, rfl, hhelp, hset⟩
    exact ⟨settings, word :: rest, rfl, .help rest hset hhelp⟩

/-- A command line is rejected for a setting that cannot be made, for an unknown word, or for a
flag without a value, whichever comes first. -/
theorem Grammar.Unambiguous.parse_eq_error_iff (h : g.Unambiguous) {state : σ}
    {words : List (List χ)} {e : ε} :
    g.parse set unknown missing state words = .error e ↔
      ∃ (settings : List (Setting χ ι)) (rest : List (List χ)),
        words = settings.flatMap g.words ++ rest ∧
          (setAll set state settings = .error e ∨
            ∃ next, setAll set state settings = .ok next ∧
              ((∃ word more, rest = word :: more ∧ g.role word = .unknown ∧ e = unknown word) ∨
                ∃ option, rest = [g.flag option] ∧ e = missing (g.flag option))) := by
  rw [h.parse_iff]
  constructor
  · rintro ⟨settings, rest, rfl, houtcome⟩
    refine ⟨settings, rest, rfl, ?_⟩
    cases houtcome with
    | rejected hset => exact .inl hset
    | unknown more hset hunknown => exact .inr ⟨_, hset, .inl ⟨_, more, rfl, hunknown, rfl⟩⟩
    | missing option hset => exact .inr ⟨_, hset, .inr ⟨option, rfl, rfl⟩⟩
  · rintro ⟨settings, rest, rfl, hset | ⟨next, hset, ⟨word, more, rfl, hunknown, rfl⟩ |
      ⟨option, rfl, rfl⟩⟩⟩
    · exact ⟨settings, rest, rfl, .rejected hset⟩
    · exact ⟨settings, _, rfl, .unknown more hset hunknown⟩
    · exact ⟨settings, _, rfl, .missing option hset⟩

end Parser

end CommandLine
