import SovriAgent.SshScanner

/-!
# Includes That Are Not Read

The fallback reads `sshd_config` and the drop-ins of `sshd_config.d`, and marks the text as
incomplete if another file is included. Which lines include one is decided by two textual tests
of the base: a line with `sshd_config.d` anywhere in it counts as the drop-in directory alone,
and the lines of the drop-ins are not tested at all.

How sshd takes a line apart, and the files a pattern stands for, are not part of the scanner:
they are a parameter, of which nothing is assumed. Its keyword need not be how a line starts,
as sshd takes quotes and a leading `=` off it; the test of the base does not see such a line.

## Main results

* `readConfigWithDropIns_eq`: the text that is graded, and when it is marked.
* `unread_include_iff`: when every include that is not read is noticed.
* `SshScanner.acquisitionCaveat_acquire`: a scan says so exactly if something was noticed.
* `unread_include_missed`: one that is not.
-/

namespace SovriAgent

/-! ### Include lines -/

/-- How sshd reads a line: its keyword and arguments, and the files an argument stands for. -/
structure IncludeReading where
  readLine : Str → Option (Str × List Str)
  expands : Str → Str → Prop

/-- The keyword of an include. -/
def includeKey : Str :=
  "include".toList

/-- A line includes the file of some path. -/
def IncludeReading.Names (sshd : IncludeReading) (line path : Str) : Prop :=
  ∃ keyword arguments, sshd.readLine line = some (keyword, arguments) ∧
    asciiLowercase keyword = includeKey ∧ ∃ pattern ∈ arguments, sshd.expands pattern path

/-! ### What is read -/

/-- The path of a drop-in. -/
def dropInPath (name : Str) : Str :=
  "/etc/ssh/sshd_config.d/".toList ++ name

/-- The drop-ins of a listing that are merged, with their texts. -/
def readableDropIns (entries : List (Option DropIn)) : List (Str × Str) :=
  (confDropIns entries).filterMap fun dropIn =>
    dropIn.text.map fun text => (dropInPath dropIn.name, text)

/-- The drop-ins that are merged into the base. -/
def mergedDropIns (probes : SshProbes) (base : Str) : List (Str × Str) :=
  if referencesDropInDir base then (probes.dropInDir.map readableDropIns).getD [] else []

/-- The paths of the files that are merged. -/
def mergedPaths (probes : SshProbes) (base : Str) : List Str :=
  sshdConfigLocator :: (mergedDropIns probes base).map Prod.fst

/-- A drop-in of a listing cannot be read. -/
def hasUnreadableDropIn (entries : List (Option DropIn)) : Bool :=
  (confDropIns entries).any fun dropIn => dropIn.text.isNone

/-- The base includes something without `sshd_config.d` in its line, or the drop-in directory
is included and it, or a drop-in of it, cannot be read. -/
def isNoticed (probes : SshProbes) (base : Str) : Bool :=
  hasUnmergedInclude base ||
    (referencesDropInDir base && (probes.dropInDir.map hasUnreadableDropIn).getD true)

theorem foldl_mergeDropIn (dropIns : List DropIn) (config : Str × Bool) :
    dropIns.foldl mergeDropIn config =
      (config.1 ++ (dropIns.filterMap fun dropIn =>
          dropIn.text.map fun text => (dropInPath dropIn.name, text)).flatMap
        fun merged => '\n' :: merged.2,
        config.2 || dropIns.any fun dropIn => dropIn.text.isNone) := by
  induction dropIns generalizing config with
  | nil => simp
  | cons dropIn dropIns ih =>
      rw [List.foldl_cons, ih, mergeDropIn, List.filterMap_cons, List.any_cons]
      cases dropIn.text <;> simp

/-- **The text that is graded** is the base with the merged drop-ins; it is marked if something
was noticed. -/
theorem readConfigWithDropIns_eq (probes : SshProbes) :
    readConfigWithDropIns probes = probes.config.map fun base =>
      (base ++ (mergedDropIns probes base).flatMap fun merged => '\n' :: merged.2,
        isNoticed probes base) := by
  refine congrArg (probes.config.map ·) (funext fun base => ?_)
  rw [mergedDropIns, isNoticed]
  cases referencesDropInDir base with
  | false => simp
  | true =>
      cases hdir : probes.dropInDir with
      | none => simp
      | some entries =>
          simp only [if_true, Option.map_some, Option.getD_some, Bool.true_and]
          exact foldl_mergeDropIn (confDropIns entries) _

/-! ### Includes that are noticed -/

/-- A line of a graded text includes a file that is there and is not merged. -/
def UnreadInclude (sshd : IncludeReading) (onDisk : Str → Prop) (probes : SshProbes)
    (base : Str) : Prop :=
  ∃ text ∈ base :: (mergedDropIns probes base).map Prod.snd, ∃ line ∈ lines text, ∃ path,
    sshd.Names line path ∧ onDisk path ∧ path ∉ mergedPaths probes base

/-- A line of the base the test lets through: it has `sshd_config.d` in it, or does not start
with the keyword of an include. -/
def isLetThrough (line : Str) : Bool :=
  containsText "sshd_config.d".toList (asciiLowercase (trim line)) ||
    !startsWith includeKey (asciiLowercase (trim line))

/-- The lines that are let through include merged files alone: those of the base the test does
not take for an include of another file, and all of the drop-ins. -/
structure IncludesMerged (sshd : IncludeReading) (onDisk : Str → Prop) (probes : SshProbes)
    (base : Str) : Prop where
  ofBase : ∀ line ∈ lines base, isLetThrough line = true →
    ∀ path, sshd.Names line path → onDisk path → path ∈ mergedPaths probes base
  ofDropIns : ∀ merged ∈ mergedDropIns probes base, ∀ line ∈ lines merged.2,
    ∀ path, sshd.Names line path → onDisk path → path ∈ mergedPaths probes base

/-- A line that starts with the keyword of an include is no comment. -/
theorem not_comment_of_include {line : Str}
    (h : startsWith includeKey (asciiLowercase (trim line)) = true) :
    startsWith ['#'] (trim line) = false := by
  cases hline : trim line with
  | nil => rfl
  | cons c rest =>
      by_cases hc : c = '#'
      · subst hc
        rw [hline] at h
        cases h
      · rw [startsWith, stripPrefix, if_neg (Ne.symm hc)]
        rfl

/-- The test of the base finds the lines it does not let through. -/
theorem hasUnmergedInclude_iff {base : Str} :
    hasUnmergedInclude base = true ↔ ∃ line ∈ lines base, isLetThrough line = false := by
  rw [hasUnmergedInclude, List.any_eq_true]
  constructor
  · rintro ⟨text, htext, hcontains⟩
    obtain ⟨hdirective, hstart⟩ := List.mem_filter.mp htext
    obtain ⟨trimmed, htrimmed, rfl⟩ := List.mem_map.mp hdirective
    obtain ⟨line, hline, rfl⟩ := List.mem_map.mp (List.mem_filter.mp htrimmed).1
    refine ⟨line, hline, ?_⟩
    rw [isLetThrough, includeKey, hstart, (Bool.not_eq_true' _).mp hcontains]
    rfl
  · rintro ⟨line, hline, hlet⟩
    obtain ⟨hcontains, hstart⟩ := Bool.or_eq_false_iff.mp hlet
    have hstart := (Bool.not_eq_false' _).mp hstart
    refine ⟨asciiLowercase (trim line), List.mem_filter.mpr ⟨?_, hstart⟩, by rw [hcontains]; rfl⟩
    refine List.mem_map_of_mem (List.mem_filter.mpr ⟨List.mem_map_of_mem hline, ?_⟩)
    rw [not_comment_of_include hstart]
    rfl

/-- The drop-in directory is included, and it or a drop-in of it cannot be read. -/
def DropInsUnreadable (probes : SshProbes) (base : Str) : Prop :=
  referencesDropInDir base = true ∧
    ∀ entries, probes.dropInDir = some entries → hasUnreadableDropIn entries = true

/-- What is noticed of the base and of the drop-in directory. -/
theorem isNoticed_iff {probes : SshProbes} {base : Str} :
    isNoticed probes base = true ↔
      (∃ line ∈ lines base, isLetThrough line = false) ∨ DropInsUnreadable probes base := by
  rw [isNoticed, Bool.or_eq_true, hasUnmergedInclude_iff, Bool.and_eq_true, DropInsUnreadable]
  cases probes.dropInDir <;> simp

/-- If nothing is noticed, then no include is unread exactly if the lines that are let through
include merged files alone. -/
theorem unreadInclude_iff {sshd : IncludeReading} {onDisk : Str → Prop} {probes : SshProbes}
    {base : Str} (hunnoticed : isNoticed probes base = false) :
    ¬UnreadInclude sshd onDisk probes base ↔ IncludesMerged sshd onDisk probes base := by
  have hunmerged : hasUnmergedInclude base ≠ true := by
    rw [(Bool.or_eq_false_iff.mp hunnoticed).1]
    exact Bool.false_ne_true
  constructor
  · intro hnone
    refine ⟨fun line hline _ path hnames hdisk => ?_,
      fun merged hmerged line hline path hnames hdisk => ?_⟩
    · by_contra hpath
      exact hnone ⟨base, List.mem_cons_self, line, hline, path, hnames, hdisk, hpath⟩
    · by_contra hpath
      exact hnone ⟨merged.2, List.mem_cons_of_mem _ (List.mem_map_of_mem hmerged), line, hline,
        path, hnames, hdisk, hpath⟩
  · rintro hall ⟨text, htext, line, hline, path, hnames, hdisk, hpath⟩
    rcases List.mem_cons.mp htext with rfl | htext
    · refine hpath (hall.ofBase line hline ?_ path hnames hdisk)
      by_contra hlet
      exact hunmerged (hasUnmergedInclude_iff.mpr ⟨line, hline, Bool.not_eq_true _ ▸ hlet⟩)
    · obtain ⟨merged, hmerged, rfl⟩ := List.mem_map.mp htext
      exact hpath (hall.ofDropIns merged hmerged line hline path hnames hdisk)

/-- **Every include that is not read is noticed** exactly if a line of the base is not let
through, or the drop-ins are included and unreadable, or the lines that are let through include
merged files alone. -/
theorem unread_include_iff (sshd : IncludeReading) (onDisk : Str → Prop) (probes : SshProbes) :
    (∀ base text unresolved, probes.config = some base →
      readConfigWithDropIns probes = some (text, unresolved) →
      UnreadInclude sshd onDisk probes base → unresolved = true) ↔
    ∀ base, probes.config = some base →
      (∃ line ∈ lines base, isLetThrough line = false) ∨ DropInsUnreadable probes base ∨
        IncludesMerged sshd onDisk probes base := by
  rw [readConfigWithDropIns_eq]
  constructor
  · intro h base hbase
    rw [← or_assoc, ← isNoticed_iff]
    cases hnoticed : isNoticed probes base with
    | true => exact .inl rfl
    | false =>
        refine .inr ((unreadInclude_iff hnoticed).mp fun hunread => ?_)
        have hread := h base _ _ hbase (by rw [hbase]; rfl) hunread
        exact Bool.false_ne_true (hnoticed.symm.trans hread)
  · intro h base text unresolved hbase hread hunread
    rw [hbase] at hread
    obtain ⟨-, rfl⟩ := Prod.mk.inj (Option.some.inj hread)
    cases hnoticed : isNoticed probes base with
    | true => rfl
    | false =>
        have hcondition := h base hbase
        rw [← or_assoc, ← isNoticed_iff, hnoticed] at hcondition
        have hall := hcondition.resolve_left Bool.false_ne_true
        exact absurd hunread ((unreadInclude_iff hnoticed).mpr hall)

/-! ### What a scan says of it -/

/-- What a scan has read: the base, or something else. -/
theorem SshSnapshot.acquire_cases (probes : SshProbes) :
    (∃ base, probes.effective.output = none ∧ probes.config = some base ∧
      (SshSnapshot.acquire probes).source = .parsedFallback ∧
      (SshSnapshot.acquire probes).unresolvedInclude = isNoticed probes base) ∨
    ((probes.effective.output = none → probes.config = none) ∧
      (SshSnapshot.acquire probes).source ≠ .parsedFallback ∧
      (SshSnapshot.acquire probes).unresolvedInclude = false) := by
  rw [SshSnapshot.acquire, readConfigWithDropIns_eq]
  cases probes.effective.output with
  | some dump => exact .inr ⟨nofun, nofun, rfl⟩
  | none =>
      cases probes.config with
      | some base =>
          refine .inl ⟨base, rfl, rfl, ?_⟩
          dsimp only [Option.map_some]
          cases isNoticed probes base <;> exact ⟨rfl, rfl⟩
      | none =>
          refine .inr ⟨fun _ => rfl, ?_⟩
          dsimp only [Option.map_none]
          split <;> exact ⟨nofun, rfl⟩

theorem SshScanner.acquisitionNote_isSome {scanner : SshScanner} :
    scanner.acquisitionNote.isSome = true ↔ scanner.snapshot.source = .parsedFallback := by
  rw [acquisitionNote]
  split <;> simp [*]

theorem SshScanner.acquisitionCaveat_isSome {scanner : SshScanner} :
    scanner.acquisitionCaveat.isSome = true ↔ scanner.snapshot.unresolvedInclude = true := by
  rw [acquisitionCaveat]
  split <;> simp [*]

/-- **The note of a scan**: there is one exactly if the effective configuration is not available
and the base is read instead. -/
theorem SshScanner.acquisitionNote_acquire {sdk : EvidenceSdk} {probes : SshProbes}
    {policy : SshPolicy} :
    (SshScanner.acquire sdk probes policy).acquisitionNote.isSome = true ↔
      probes.effective.output = none ∧ ∃ base, probes.config = some base := by
  rw [acquisitionNote_isSome]
  change (SshSnapshot.acquire probes).source = .parsedFallback ↔ _
  rcases SshSnapshot.acquire_cases probes with
    ⟨base, heffective, hconfig, hsource, -⟩ | ⟨hother, hsource, -⟩
  · exact iff_of_true hsource ⟨heffective, base, hconfig⟩
  · refine iff_of_false hsource ?_
    rintro ⟨heffective, base, hconfig⟩
    cases (hother heffective).symm.trans hconfig

/-- **The caveat of a scan**: there is one exactly if the effective configuration is not
available and something was noticed in the base that is read instead. -/
theorem SshScanner.acquisitionCaveat_acquire {sdk : EvidenceSdk} {probes : SshProbes}
    {policy : SshPolicy} :
    (SshScanner.acquire sdk probes policy).acquisitionCaveat.isSome = true ↔
      probes.effective.output = none ∧
        ∃ base, probes.config = some base ∧ isNoticed probes base = true := by
  rw [acquisitionCaveat_isSome]
  change (SshSnapshot.acquire probes).unresolvedInclude = true ↔ _
  rcases SshSnapshot.acquire_cases probes with
    ⟨base, heffective, hconfig, -, hnoticed⟩ | ⟨hother, -, hnoticed⟩
  · simp [heffective, hconfig, hnoticed]
  · rw [hnoticed]
    refine iff_of_false Bool.false_ne_true ?_
    rintro ⟨heffective, base, hconfig, -⟩
    cases (hother heffective).symm.trans hconfig

/-! ### An include that is missed -/

/-- A reading of lines without quotes and patterns: words, and paths that stand for
themselves. -/
def plainReading : IncludeReading where
  readLine line :=
    some ((trim line).takeWhile fun c => !isWhitespace c,
      (splitChar ' ' ((trim line).dropWhile fun c => !isWhitespace c)).filter (· ≠ []))
  expands pattern path := pattern = path

/-- A line that includes a drop-in and another file. -/
def twoIncludes : Str :=
  "Include /etc/ssh/sshd_config.d/site.conf /etc/ssh/extra.conf".toList

/-- The other file. -/
def extraPath : Str :=
  "/etc/ssh/extra.conf".toList

/-- A server whose base has that line alone, and whose drop-in can be read. -/
def twoIncludesProbes : SshProbes where
  effective := .missing
  config := some (twoIncludes ++ ['\n'])
  dropInDir := some [some ⟨"site.conf".toList, some "PermitRootLogin no\n".toList⟩]
  configExists := true
  sshdOnPath := true

/-- The files of that host. -/
def twoIncludesFiles (path : Str) : Prop :=
  path ∈ [sshdConfigLocator, dropInPath "site.conf".toList, extraPath]

/-- A file that is included and not read is not noticed. -/
theorem unread_include_missed :
    ¬ ∀ (sshd : IncludeReading) (onDisk : Str → Prop) (probes : SshProbes)
      (base text : Str) (unresolved : Bool), probes.config = some base →
      readConfigWithDropIns probes = some (text, unresolved) →
      UnreadInclude sshd onDisk probes base → unresolved = true := by
  intro h
  have hlines : lines (twoIncludes ++ ['\n']) = [twoIncludes] := by decide
  have hmerged : mergedPaths twoIncludesProbes (twoIncludes ++ ['\n']) =
      [sshdConfigLocator, dropInPath "site.conf".toList] := by decide
  have hnoticed : isNoticed twoIncludesProbes (twoIncludes ++ ['\n']) = false := by decide
  have hnames : plainReading.Names twoIncludes extraPath :=
    ⟨"Include".toList, [dropInPath "site.conf".toList, extraPath], by decide, by decide,
      extraPath, List.mem_cons_of_mem _ (List.mem_singleton_self _), rfl⟩
  have hunread : UnreadInclude plainReading twoIncludesFiles twoIncludesProbes
      (twoIncludes ++ ['\n']) := by
    refine ⟨_, List.mem_cons_self, twoIncludes, ?_, extraPath, hnames, ?_, ?_⟩
    · rw [hlines]
      exact List.mem_singleton_self _
    · exact List.mem_cons_of_mem _ (List.mem_cons_of_mem _ (List.mem_singleton_self _))
    · rw [hmerged]
      decide
  have hread := readConfigWithDropIns_eq twoIncludesProbes
  rw [show twoIncludesProbes.config = some (twoIncludes ++ ['\n']) from rfl, Option.map_some,
    hnoticed] at hread
  exact Bool.false_ne_true (h _ _ _ _ _ _ rfl hread hunread)

end SovriAgent
