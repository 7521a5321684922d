import SovriAgent.SshScanner

/-!
# The Value sshd Takes

A keyword of `sshd_config` may be set on several lines, some of them in `Match` blocks. For a
connection that no block matches sshd takes the first of the lines before the first `Match`, or
its default. The parser of the scanner inserts line after line into a map, `Match` blocks
included, so that the last line of the text is the one that is graded.

How sshd takes a line apart is not part of the scanner: it is the parameter `readLine`, the
keyword and the argument of a line, if it has them.

## Main results

* `get_parseDirectives`: the parser answers with the last line of a keyword.
* `passes_iff_lastValue`: when a rule passes on a parsed configuration.
* `sshd_first_iff`: when a pass means that sshd does not take `yes`.
* `sshd_first_fails`: root may log in, and the rule passes.
-/

namespace SovriAgent

/-! ### What sshd takes -/

/-- A keyword whose value `yes` is a finding. -/
inductive GradedKeyword where
  | permitRootLogin
  | passwordAuthentication
deriving DecidableEq, Repr

namespace GradedKeyword

/-- The keyword, in lower case. -/
def key : GradedKeyword → Str
  | permitRootLogin => permitRootLoginKey
  | passwordAuthentication => passwordAuthenticationKey

/-- The rule that grades it. -/
def rule : GradedKeyword → Str
  | permitRootLogin => permitRootLoginRule
  | passwordAuthentication => passwordAuthRule

/-- What sshd takes if no line sets the keyword. -/
def unset : GradedKeyword → Str
  | permitRootLogin => "prohibit-password".toList
  | passwordAuthentication => "yes".toList

end GradedKeyword

/-- The keyword that opens a block of conditional lines. -/
def matchKey : Str :=
  "match".toList

/-- What sshd reads before the first `Match` line. -/
def globalLines (readLine : Str → Option (Str × Str)) (text : Str) : List (Str × Str) :=
  ((lines text).filterMap readLine).takeWhile fun row => !eqIgnoreAsciiCase row.1 matchKey

/-- The value sshd takes for a connection that no `Match` block matches. -/
def sshdValue (readLine : Str → Option (Str × Str)) (text : Str) (keyword : GradedKeyword) : Str :=
  (((globalLines readLine text).find? fun row => eqIgnoreAsciiCase row.1 keyword.key).map
    Prod.snd).getD keyword.unset

/-- A value that reads `yes`. -/
def SaysYes (value : Str) : Prop :=
  asciiLowercase (trim value) = "yes".toList

/-! ### What the parser takes -/

/-- The keyword and the value of a line, as the parser takes it apart. -/
def directiveOf (line : Str) : Option (Str × Str) :=
  let line := trim line
  if line = [] ∨ startsWith ['#'] line then none
  else
    some (asciiLowercase (line.takeWhile fun c => !isWhitespace c),
      trim (line.dropWhile fun c => !isWhitespace c))

/-- The value of the last line of a keyword. -/
def lastValue (text key : Str) : Option Str :=
  (((lines text).filterMap directiveOf).reverse.find? (·.1 = key)).map Prod.snd

theorem foldl_insertDirective (rows : List Str) (directives : Ordered.Map Str Str) :
    rows.foldl insertDirective directives =
      (rows.filterMap directiveOf).foldl (fun map entry => map.insert entry.1 entry.2)
        directives := by
  induction rows generalizing directives with
  | nil => rfl
  | cons line rows ih =>
      rw [List.foldl_cons, ih, List.filterMap_cons, insertDirective, directiveOf]
      split_ifs <;> rfl

/-- **The last line of a keyword** is the one the parser answers with. -/
theorem get_parseDirectives (text key : Str) :
    (parseDirectives text).get key = lastValue text key := by
  rw [parseDirectives, foldl_insertDirective, Ordered.Map.get_foldl_insert,
    Ordered.Map.get_empty, Option.or_none, lastValue]
  congr!

/-! ### When the rules pass -/

/-- The snapshot of a configuration that was parsed from its files. -/
def fallbackSnapshot (text : Str) (unresolved : Bool) : SshSnapshot :=
  let builder := SshSnapshot.builder.parsedConfig text
  if unresolved then builder.markUnresolvedInclude.build else builder.build

theorem parseRootLogin_eq_enabled {value : Str} :
    parseRootLogin value = .enabled ↔ SaysYes value := by
  have hno : "no".toList ≠ "yes".toList := by decide
  rw [parseRootLogin, SaysYes]
  by_cases hyes : asciiLowercase (trim value) = "yes".toList
  · rw [if_neg (fun h => hno (h.symm.trans hyes)), if_pos hyes]
    exact iff_of_true rfl hyes
  · rw [if_neg hyes]
    refine iff_of_false ?_ hyes
    split_ifs <;> exact id

theorem eqIgnoreAsciiCase_yes {value : Str} :
    eqIgnoreAsciiCase (trim value) "yes".toList = true ↔ SaysYes value := by
  have hlower : asciiLowercase "yes".toList = "yes".toList := by decide
  rw [eqIgnoreAsciiCase, beq_iff_eq, hlower, SaysYes]

/-- An anchored evaluation passes if it is satisfied. -/
theorem passes_anchored (scanner : SshScanner) (evaluation : Evaluation) :
    Passes (.ok (scanner.anchored evaluation)) ↔ evaluation.outcome = .satisfied := by
  have houtcome : (scanner.anchored evaluation).outcome = evaluation.outcome := by
    rw [SshScanner.anchored]
    cases scanner.evidenceId <;> rfl
  rw [← houtcome]
  constructor
  · rintro ⟨evaluation', h, hsatisfied⟩
    exact Except.ok.inj h ▸ hsatisfied
  · exact fun hsatisfied => ⟨_, rfl, hsatisfied⟩

/-- A condition that is a finding passes where it fails. -/
theorem passes_unless (scanner : SshScanner) (condition : Prop) [Decidable condition]
    (detail : Str) :
    Passes (if condition then .ok (scanner.anchored (Evaluation.finding.withDetail detail))
      else .ok (scanner.anchored .satisfied)) ↔ ¬condition := by
  split_ifs with hcondition
  · refine iff_of_false (fun h => ?_) (not_not_intro hcondition)
    cases (passes_anchored scanner _).mp h
  · exact iff_of_true ((passes_anchored scanner _).mpr rfl) hcondition

/-- A rule about a directive passes if the directive is there and passes. -/
theorem passes_requireDirective {scanner : SshScanner} {key : Str} {evaluate : Str → Answer} :
    Passes (scanner.requireDirective key >>= evaluate) ↔
      ∃ value, scanner.snapshot.directive key = some value ∧ Passes (evaluate value) := by
  rw [SshScanner.requireDirective]
  cases hdirective : scanner.snapshot.directive key with
  | none =>
      refine iff_of_false ?_ (by rintro ⟨value, h, -⟩; cases h)
      rintro ⟨evaluation, h, -⟩
      dsimp only at h
      split_ifs at h <;> cases h
  | some value =>
      change Passes (evaluate value) ↔ _
      constructor
      · exact fun h => ⟨value, rfl, h⟩
      · rintro ⟨value', h, hpasses⟩
        exact Option.some.inj h ▸ hpasses

/-- A rule passes if the last line of its keyword does not say `yes`. -/
theorem passes_iff_lastValue (sdk : EvidenceSdk) (policy : SshPolicy) (unresolved : Bool)
    (keyword : GradedKeyword) (text : Str) :
    Passes ((SshScanner.new sdk (fallbackSnapshot text unresolved) policy).evaluate keyword.rule) ↔
      ∃ value, lastValue text keyword.key = some value ∧ ¬SaysYes value := by
  set scanner := SshScanner.new sdk (fallbackSnapshot text unresolved) policy with hscanner
  have hsource : scanner.snapshot.source = .parsedFallback := by cases unresolved <;> rfl
  have hdirective : scanner.snapshot.directive keyword.key = lastValue text keyword.key := by
    rw [← get_parseDirectives]
    cases unresolved <;> rfl
  rw [← hdirective]
  cases keyword with
  | permitRootLogin =>
      have hevaluate : scanner.evaluate permitRootLoginRule = scanner.evaluatePermitRootLogin := by
        simp only [SshScanner.evaluate, hsource, if_true]
      change Passes (scanner.evaluate permitRootLoginRule) ↔ _
      rw [hevaluate, SshScanner.evaluatePermitRootLogin, passes_requireDirective]
      refine exists_congr fun value => and_congr_right' ?_
      exact (passes_unless scanner _ _).trans (not_congr parseRootLogin_eq_enabled)
  | passwordAuthentication =>
      have hevaluate : scanner.evaluate passwordAuthRule = scanner.evaluatePasswordAuth := by
        have hroot : passwordAuthRule ≠ permitRootLoginRule := by decide
        have hkey : passwordAuthRule ≠ rootLoginKeyOnlyRule := by decide
        simp only [SshScanner.evaluate, hsource, hroot, hkey, if_false, if_true]
      change Passes (scanner.evaluate passwordAuthRule) ↔ _
      rw [hevaluate, SshScanner.evaluatePasswordAuth, passes_requireDirective]
      refine exists_congr fun value => and_congr_right' ?_
      exact (passes_unless scanner _ _).trans (not_congr eqIgnoreAsciiCase_yes)

/-! ### What a pass means -/

/-- **A pass means that sshd does not take `yes`** unless sshd takes it and the last line of the
keyword, in a `Match` block or not, says something else. -/
theorem sshd_first_iff (readLine : Str → Option (Str × Str)) (sdk : EvidenceSdk)
    (policy : SshPolicy) (unresolved : Bool) (keyword : GradedKeyword) (text : Str) :
    (Passes ((SshScanner.new sdk (fallbackSnapshot text unresolved) policy).evaluate
        keyword.rule) →
      ¬SaysYes (sshdValue readLine text keyword)) ↔
    (SaysYes (sshdValue readLine text keyword) →
      ∀ value, lastValue text keyword.key = some value → SaysYes value) := by
  rw [passes_iff_lastValue]
  constructor
  · intro h hyes value hvalue
    by_contra hother
    exact h ⟨value, hvalue, hother⟩ hyes
  · rintro h ⟨value, hvalue, hother⟩ hyes
    exact hother (h hyes value hvalue)

/-- The keyword and the argument of a line without quotes: its first word, and the rest. -/
def plainLine (line : Str) : Option (Str × Str) :=
  let line := trim line
  if line = [] ∨ startsWith ['#'] line then none
  else
    some (line.takeWhile fun c => !isWhitespace c, trim (line.dropWhile fun c => !isWhitespace c))

/-- A configuration that lets root in, and takes it back on a line that sshd passes over. -/
def repeatedConfig : Str :=
  "PermitRootLogin yes\nPermitRootLogin no\n".toList

/-- Root may log in, and the rule passes. -/
theorem sshd_first_fails :
    ¬ ∀ (sdk : EvidenceSdk) (policy : SshPolicy) (unresolved : Bool) (keyword : GradedKeyword)
      (text : Str),
      Passes ((SshScanner.new sdk (fallbackSnapshot text unresolved) policy).evaluate
        keyword.rule) →
      ¬SaysYes (sshdValue plainLine text keyword) := by
  intro h
  have hpasses := (passes_iff_lastValue keepingSdk ⟨[], [], []⟩ false .permitRootLogin
    repeatedConfig).mpr ⟨"no".toList, by decide, by rw [SaysYes]; decide⟩
  refine h keepingSdk ⟨[], [], []⟩ false .permitRootLogin repeatedConfig hpasses ?_
  rw [SaysYes]
  decide

end SovriAgent
