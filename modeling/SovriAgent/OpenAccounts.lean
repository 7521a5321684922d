import SovriAgent.UserScanner

/-!
# Accounts Open Without a Password

What `passwd` and `shadow` say of the accounts that log in without a password, as their manual
pages have it, against what the scanner makes of the same texts. The password of an account is
the second field of its line in `passwd`, unless that field is `x`, which refers to the first
line of its name in `shadow`; an empty shell is `/bin/sh`.

The scanner reads the password of `shadow` alone, and takes an empty shell for one that starts
no session. So an account can be open without being flagged, and the rule then passes unless
another account is flagged.

## Main results

* `isPasswordlessLogin_iff`: the accounts the scanner flags, in terms of the two texts.
* `noEmptyPassword_iff`: when a pass means that no account is open.
* `noEmptyPassword_passes_open`: an open account that is passed.
-/

namespace SovriAgent

/-! ### The rows of the two files -/

/-- An account, as its line of `passwd` describes it. -/
structure PasswdRow where
  name : Str
  password : Str
  uid : ℕ
  shell : Str

/-- The account of a line of seven fields, with a number for a uid. -/
def readPasswdRow (line : Str) : Option PasswdRow :=
  match splitChar ':' line with
  | name :: password :: uid :: _ :: _ :: _ :: shell :: _ =>
      (parseUnsigned 10 4294967295 uid).map fun uid => ⟨name, password, uid, shell⟩
  | _ => none

/-- The accounts of `passwd`. -/
def passwdRows (passwd : Str) : List PasswdRow :=
  (lines passwd).filterMap readPasswdRow

/-- The name and the password of a line of `shadow`. -/
def readShadowRow (line : Str) : Option (Str × Str) :=
  match splitChar ':' line with
  | name :: password :: _ => some (name, password)
  | _ => none

/-- The password of the first line of a name in `shadow`. -/
def shadowPassword (shadow name : Str) : Option Str :=
  (((lines shadow).filterMap readShadowRow).find? fun row => row.1 = name).map Prod.snd

/-- The shells that start no session. -/
def noSessionShells : List Str :=
  ["/usr/sbin/nologin".toList, "/sbin/nologin".toList, "/bin/false".toList,
    "/usr/bin/false".toList]

namespace PasswdRow

variable (shadow : Str) (row : PasswdRow)

/-- The password that lets an account in, if it has one. -/
def effectivePassword : Option Str :=
  if row.password = ['x'] then shadowPassword shadow row.name else some row.password

/-- An account that logs in without a password. -/
def Open : Prop :=
  row.shell ∉ noSessionShells ∧ row.effectivePassword shadow = some []

/-- An account the scanner does not see: its shell and its password are empty, or it has a login
shell and an empty password in `passwd` that is not that of `shadow`. -/
def Unseen : Prop :=
  (row.shell = [] ∧ row.effectivePassword shadow = some []) ∨
    (row.shell ∉ noSessionShells ∧ row.password = [] ∧
      shadowPassword shadow row.name ≠ some [])

/-- An account with a named login shell and an empty password in `shadow`. -/
def Flagged : Prop :=
  row.shell ≠ [] ∧ row.shell ∉ noSessionShells ∧ shadowPassword shadow row.name = some []

/-- An unseen account is open. -/
theorem Unseen.isOpen {shadow : Str} {row : PasswdRow} (h : row.Unseen shadow) :
    row.Open shadow := by
  rcases h with ⟨hshell, hpassword⟩ | ⟨hshell, hpassword, -⟩
  · have hsession : [] ∉ noSessionShells := by decide
    exact ⟨hshell ▸ hsession, hpassword⟩
  · have hx : row.password ≠ ['x'] := hpassword ▸ (List.cons_ne_nil _ _).symm
    exact ⟨hshell, (if_neg hx).trans (congrArg some hpassword)⟩

/-- An open account is flagged or unseen. -/
theorem Open.flagged_or_unseen {shadow : Str} {row : PasswdRow} (h : row.Open shadow) :
    row.Flagged shadow ∨ row.Unseen shadow := by
  by_cases hshell : row.shell = []
  · exact .inr (.inl ⟨hshell, h.2⟩)
  by_cases hshadow : shadowPassword shadow row.name = some []
  · exact .inl ⟨hshell, h.1, hshadow⟩
  · -- the empty password is not that of `shadow`, so the field of `passwd` is not `x`
    have heffective := h.2
    rw [effectivePassword] at heffective
    split_ifs at heffective with hx
    · exact absurd heffective hshadow
    · exact .inr (.inr ⟨h.1, Option.some.inj heffective, hshadow⟩)

end PasswdRow

/-! ### The accounts of the scanner -/

theorem parsePasswdLine_eq (line : Str) :
    parsePasswdLine line = (readPasswdRow line).map fun row => (row.name, row.uid, row.shell) := by
  rw [parsePasswdLine, readPasswdRow]
  rcases splitChar ':' line with
    _ | ⟨name, _ | ⟨password, _ | ⟨uid, _ | ⟨gid, _ | ⟨comment, _ | ⟨home, _ | ⟨shell, rest⟩⟩⟩⟩⟩⟩⟩
  iterate 7 rfl
  dsimp only
  rw [Option.map_map]
  rfl

theorem parseShadowLine_eq (line : Str) :
    parseShadowLine line = (readShadowRow line).map fun row =>
      (row.1, ⟨classifyPasswordField row.2, .undetermined, false, line⟩) := by
  rw [parseShadowLine, readShadowRow]
  rcases splitChar ':' line with _ | ⟨name, _ | ⟨field, rest⟩⟩ <;> rfl

theorem classifyPasswordField_eq_empty {field : Str} :
    classifyPasswordField field = .empty ↔ field = [] := by
  rw [classifyPasswordField]
  split_ifs with hempty <;> simp [hempty]

/-- The entry of a name has the class of its password in `shadow`. -/
theorem shadowEntryOf_password (rows : List Str) (name : Str) :
    (shadowEntryOf (rows.filterMap parseShadowLine) name).map (·.password) =
      ((rows.filterMap readShadowRow).find? fun row => row.1 = name).map fun row =>
        classifyPasswordField row.2 := by
  rw [shadowEntryOf]
  induction rows with
  | nil => rfl
  | cons line rows ih =>
      rw [List.filterMap_cons, List.filterMap_cons, parseShadowLine_eq]
      cases readShadowRow line with
      | none => exact ih
      | some row =>
          rw [Option.map_some]
          by_cases hname : row.1 = name
          · rw [List.find?_cons_of_pos (by simpa using hname),
              List.find?_cons_of_pos (by simpa using hname)]
            rfl
          · rw [List.find?_cons_of_neg (by simpa using hname),
              List.find?_cons_of_neg (by simpa using hname)]
            exact ih

/-- The account the scanner makes of a row. -/
def PasswdRow.account (shadow : Str) (row : PasswdRow) : Account where
  name := row.name
  uid := row.uid
  shell := row.shell
  shadow := shadowEntryOf (parseShadow shadow) row.name

/-- The scanner reads the rows of `passwd`. -/
theorem parseAccounts_eq (passwd shadow : Str) :
    parseAccounts passwd (some shadow) = (passwdRows passwd).map (PasswdRow.account shadow) := by
  have hparse : parsePasswdLine =
      fun line => (readPasswdRow line).map fun row => (row.name, row.uid, row.shell) :=
    funext parsePasswdLine_eq
  rw [parseAccounts, passwdRows, hparse, ← List.map_filterMap, List.map_map]
  rfl

theorem hasLoginShell_iff {shell : Str} :
    hasLoginShell shell = true ↔ shell ≠ [] ∧ shell ∉ noSessionShells := by
  have hshells : nonLoginShells = noSessionShells ++ [[]] := rfl
  rw [hasLoginShell, decide_eq_true_eq, hshells, List.mem_append, List.mem_singleton, not_or]
  exact And.comm

/-- The accounts the scanner flags. -/
theorem isPasswordlessLogin_iff {shadow : Str} {row : PasswdRow} :
    isPasswordlessLogin (row.account shadow) = true ↔ row.Flagged shadow := by
  have hpassword : ((row.account shadow).shadow.map (·.password) = some .empty) ↔
      shadowPassword shadow row.name = some [] := by
    rw [PasswdRow.account, parseShadow, shadowEntryOf_password, shadowPassword]
    cases ((lines shadow).filterMap readShadowRow).find? fun row' => row'.1 = row.name with
    | none => simp
    | some row' => simp [classifyPasswordField_eq_empty]
  rw [isPasswordlessLogin, Bool.and_eq_true, decide_eq_true_eq, hpassword, hasLoginShell_iff,
    PasswdRow.Flagged, and_assoc]
  rfl

/-- A scanner that could read `shadow` passes the rule if no account is flagged. -/
theorem passes_evaluateNoEmptyPassword {scanner : UserScanner}
    (hreadable : scanner.snapshot.shadowReadable = true) :
    Passes (scanner.evaluate noEmptyPasswordRule) ↔
      scanner.snapshot.accounts.filter isPasswordlessLogin = [] := by
  have hinventory : noEmptyPasswordRule ≠ inventoryRule := by decide
  have hroot : noEmptyPasswordRule ≠ singleRootRule := by decide
  rw [UserScanner.evaluate, if_neg hinventory, if_neg hroot, if_pos rfl,
    UserScanner.evaluateNoEmptyPassword, if_pos hreadable]
  by_cases hnone : scanner.snapshot.accounts.filter isPasswordlessLogin = []
  · exact iff_of_true ⟨_, if_pos hnone, rfl⟩ hnone
  · refine iff_of_false ?_ hnone
    rintro ⟨evaluation, hok, houtcome⟩
    obtain rfl := Except.ok.inj ((if_neg hnone).symm.trans hok)
    cases houtcome

/-- **The rule passes** if no row is flagged. -/
theorem passes_iff_flagged (sdk : EvidenceSdk) (policy : UserPolicy) (passwd shadow : Str) :
    Passes ((UserScanner.new sdk (.acquire passwd (some shadow)) policy).evaluate
        noEmptyPasswordRule) ↔
      ∀ row ∈ passwdRows passwd, ¬row.Flagged shadow := by
  refine (passes_evaluateNoEmptyPassword rfl).trans ?_
  change (parseAccounts passwd (some shadow)).filter isPasswordlessLogin = [] ↔ _
  rw [parseAccounts_eq, List.filter_eq_nil_iff, List.forall_mem_map]
  simp only [isPasswordlessLogin_iff]

/-! ### What a pass means -/

/-- **A pass means that no account is open** if no account is unseen, or another is flagged. -/
theorem noEmptyPassword_iff (sdk : EvidenceSdk) (policy : UserPolicy) (passwd shadow : Str) :
    (Passes ((UserScanner.new sdk (.acquire passwd (some shadow)) policy).evaluate
        noEmptyPasswordRule) →
      ∀ row ∈ passwdRows passwd, ¬row.Open shadow) ↔
    ((∃ row ∈ passwdRows passwd, row.Unseen shadow) →
      ∃ row ∈ passwdRows passwd, row.Flagged shadow) := by
  rw [passes_iff_flagged]
  constructor
  · rintro h ⟨row, hrow, hunseen⟩
    by_contra hnone
    exact h (fun row' hrow' hflagged => hnone ⟨row', hrow', hflagged⟩) row hrow hunseen.isOpen
  · intro h hnone row hrow hopen
    rcases hopen.flagged_or_unseen with hflagged | hunseen
    · exact hnone row hrow hflagged
    · obtain ⟨row', hrow', hflagged⟩ := h ⟨row, hrow, hunseen⟩
      exact hnone row' hrow' hflagged

/-- A `passwd` that keeps the empty password of an account itself. -/
def openPasswd : Str :=
  "bob::1000:1000::/home/bob:/bin/sh".toList

/-- A `shadow` without that account. -/
def rootShadow : Str :=
  "root:*:19000::::::".toList

/-- The account of `openPasswd`. -/
def openRow : PasswdRow :=
  ⟨"bob".toList, [], 1000, "/bin/sh".toList⟩

/-- An open account is passed. -/
theorem noEmptyPassword_passes_open :
    ¬ ∀ (sdk : EvidenceSdk) (policy : UserPolicy) (passwd shadow : Str),
      Passes ((UserScanner.new sdk (.acquire passwd (some shadow)) policy).evaluate
        noEmptyPasswordRule) →
      ∀ row ∈ passwdRows passwd, ¬row.Open shadow := by
  intro h
  have hrows : passwdRows openPasswd = [openRow] := rfl
  have hshadow : shadowPassword rootShadow openRow.name = none := rfl
  have hpasses : Passes ((UserScanner.new keepingSdk (.acquire openPasswd (some rootShadow))
      ⟨90, []⟩).evaluate noEmptyPasswordRule) := by
    refine (passes_iff_flagged keepingSdk ⟨90, []⟩ openPasswd rootShadow).mpr ?_
    rw [hrows, List.forall_mem_singleton]
    rintro ⟨-, -, hflagged⟩
    rw [hshadow] at hflagged
    cases hflagged
  have hrow : openRow ∈ passwdRows openPasswd := hrows ▸ List.mem_singleton_self openRow
  exact h keepingSdk ⟨90, []⟩ openPasswd rootShadow hpasses openRow hrow ⟨by decide, rfl⟩

end SovriAgent
