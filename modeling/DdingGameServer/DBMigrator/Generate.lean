import DdingGameServer.DBMigrator.Model
import Mathlib.Data.List.DropRight
/-!
# DBMigrator — what a rerun repairs

After a run that returns `True`, every `.sql` file is to have its `.cs` file and one line in
`Migrator.csproj`. A rerun goes by the `.cs` file: what a run did not get done for the `.sql` files
that have one stays undone. So the runs are right where a file operation fails only in front of the
`.cs` file, or behind the last character of the project file (`generated_of_safe`), and the project
file has the line the entries go in front of.
-/

namespace DdingGameServer

namespace DBMigrator

/-! ## What the runs are for -/

/-- A `.sql` file of the folder. -/
def IsSql (disk : Disk) (name : Text) : Prop :=
  disk.isfile name = true ∧ endswith name sqlSuffix = true

/-- The `.cs` file of a `.sql` file. -/
def csName (sqlFileName : Text) : Text := dropEnd sqlFileName 4 ++ csSuffix

/-- The element of a `.sql` file. -/
def resource (sqlFileName : Text) : Text :=
  "<EmbeddedResource Include=\"".toList ++ withMigratorLocation ++ migrationFolderPath ++
    sqlFileName ++ "\" />".toList

/-- A text without the blanks around it. -/
def strip (text : Text) : Text :=
  (text.dropWhile Char.isWhitespace).rdropWhile Char.isWhitespace

/-- The line is the entry of a `.sql` file. -/
def isEntryOf (sqlFileName line : Text) : Bool := decide (strip line = resource sqlFileName)

namespace Disk

variable (disk : Disk)

/-- The lines of `Migrator.csproj`. -/
def lines : List Text := Lines.readLines '\n' (disk.csproj.getD [])

/-- How many entries a `.sql` file has. -/
def entries (sqlFileName : Text) : ℕ := disk.lines.countP (isEntryOf sqlFileName)

end Disk

/-- **Every `.cs` file has its entry.** -/
def Recorded (disk : Disk) : Prop := ∀ name, disk.isfile name = true →
  endswith name csSuffix = true → 0 < disk.entries (dropEnd name 3 ++ sqlSuffix)

/-- The disk, and how the last run of `DoGenerate` ended. -/
structure Migrator where
  disk : Disk
  last : Option Outcome

/-- **Runs of `DoGenerate`**, each cut short or not. -/
def migrator : System Migrator (Option Fault) where
  Init m := m.last = none ∧ Recorded m.disk
  step m fault :=
    let (outcome, disk) := doGenerate fault m.disk
    some { disk := disk, last := some outcome }

/-- **What a run that returns `True` leaves**, where the project file had the lines `original`. -/
def Generated (original : List Text) (m : Migrator) : Prop :=
  m.last = some (.returned true) →
    (∀ name, IsSql m.disk name → m.disk.isfile (csName name) = true ∧ m.disk.entries name = 1) ∧
    original.Sublist m.disk.lines

/-- The failure leaves no `.cs` file without its entry, and the project file whole. -/
def Safe : Option Fault → Prop
  | none | some .listdir | some (.migration _ .openCs) | some (.migration _ .close) => True
  | _ => False

/-- **A folder and a project file the generator can work on.** -/
structure Prepared (disk : Disk) : Prop where
  /-- `.sql` is nowhere else in a name. -/
  named : ∀ name, IsSql disk name → Lines.OnlyAtEnd sqlSuffix name
  /-- There is a line to put the entries in front of, or nothing to be made. -/
  marked : (∃ line ∈ disk.lines, closesItemGroup line = true) ∨
    ∀ name, IsSql disk name → disk.isfile (csName name) = true
  /-- No entry is there twice, or before its `.cs` file. -/
  once : ∀ name, IsSql disk name →
    disk.entries name ≤ if disk.isfile (csName name) = true then 1 else 0

variable {disk : Disk} {fault : Option FileOp} {name c base content : Text}
  {original : List Text}

/-! ## Names -/

theorem endswith_iff {text suffix : Text} : endswith text suffix = true ↔ suffix <:+ text :=
  List.isSuffixOf_iff_suffix

theorem dropEnd_append (base suffix : Text) : dropEnd (base ++ suffix) suffix.length = base := by
  rw [dropEnd, List.length_append, Nat.add_sub_cancel, List.take_left]

theorem csName_append (base : Text) : csName (base ++ sqlSuffix) = base ++ csSuffix :=
  congrArg (· ++ csSuffix) (dropEnd_append base sqlSuffix)

/-- The name of a `.sql` file, from its `.cs` file. -/
theorem dropEnd_csName (h : endswith name sqlSuffix = true) :
    dropEnd (csName name) 3 ++ sqlSuffix = name := by
  obtain ⟨base, rfl⟩ := endswith_iff.mp h
  rw [csName_append]
  exact congrArg (· ++ sqlSuffix) (dropEnd_append base csSuffix)

/-- **Two `.sql` files have two `.cs` files.** -/
theorem csName_inj {name' : Text} (h : endswith name sqlSuffix = true)
    (h' : endswith name' sqlSuffix = true) (heq : csName name = csName name') : name = name' := by
  rw [← dropEnd_csName h, ← dropEnd_csName h', heq]

theorem endswith_csName (h : endswith name sqlSuffix = true) :
    endswith (csName name) csSuffix = true := by
  obtain ⟨base, rfl⟩ := endswith_iff.mp h
  rw [csName_append]
  exact endswith_iff.mpr (List.suffix_append ..)

/-- A `.cs` file is no `.sql` file. -/
theorem not_endswith_sql (h : endswith name csSuffix = true) : endswith name sqlSuffix = false := by
  obtain ⟨base, rfl⟩ := endswith_iff.mp h
  rw [Bool.eq_false_iff]
  intro hsql
  obtain ⟨base', hbase⟩ := endswith_iff.mp hsql
  have hsqlLast : sqlSuffix.getLast? = some 'l' := rfl
  have hcsLast : csSuffix.getLast? = some 's' := rfl
  have hlast := congrArg List.getLast? hbase
  rw [List.getLast?_append, List.getLast?_append, hsqlLast, hcsLast] at hlast
  exact absurd (Option.some.inj hlast) (by decide)

/-- The name that is looked for is the one of the `.cs` file. -/
theorem replace_eq_csName (h : endswith name sqlSuffix = true)
    (hname : Lines.OnlyAtEnd sqlSuffix name) :
    Lines.replace sqlSuffix csSuffix name = csName name := by
  obtain ⟨base, rfl⟩ := endswith_iff.mp h
  rw [csName_append]
  exact Lines.replace_append (by decide) hname

/-! ## Entries -/

/-- What stands between blanks is what is left of a line. -/
theorem strip_line {a z : Char} (ha : a.isWhitespace = false) (hz : z.isWhitespace = false)
    (text : Text) :
    strip ("    ".toList ++ (a :: text ++ [z]) ++ ['\n']) = a :: text ++ [z] := by
  have hfront : ("    ".toList ++ (a :: text ++ [z]) ++ ['\n']).dropWhile Char.isWhitespace =
      a :: text ++ [z] ++ ['\n'] := by
    show ((a :: text ++ [z]) ++ ['\n']).dropWhile Char.isWhitespace = _
    simp [ha]
  rw [strip, hfront, List.rdropWhile_concat_pos _ _ _ (by decide),
    List.rdropWhile_concat_neg _ _ _ (by simp [hz])]

theorem resource_eq (name : Text) : ∃ text, resource name = '<' :: text ++ ['>'] := by
  refine ⟨"EmbeddedResource Include=\"".toList ++ withMigratorLocation ++ migrationFolderPath ++
    name ++ "\" /".toList, ?_⟩
  have hclose : resource name = "<EmbeddedResource Include=\"".toList ++ withMigratorLocation ++
      migrationFolderPath ++ name ++ ("\" /".toList ++ ['>']) := rfl
  exact hclose.trans (List.append_assoc ..).symm

theorem resourceLine_eq (name : Text) :
    resourceLine name = "    ".toList ++ resource name ++ ['\n'] := rfl

theorem strip_resourceLine (name : Text) : strip (resourceLine name) = resource name := by
  obtain ⟨text, htext⟩ := resource_eq name
  rw [resourceLine_eq, htext]
  exact strip_line (by decide) (by decide) text

theorem resource_inj {name' : Text} (h : resource name = resource name') : name = name' :=
  List.append_cancel_left (List.append_cancel_right h)

/-- **The line that is made is the entry of its file, and of no other.** -/
theorem isEntryOf_resourceLine (name name' : Text) :
    isEntryOf name' (resourceLine name) = decide (name' = name) := by
  rw [isEntryOf, strip_resourceLine]
  exact decide_eq_decide.mpr ⟨fun h => (resource_inj h).symm, fun h => by rw [h]⟩

/-! ## One migration -/

theorem isfile_writeFile : (disk.writeFile c content).isfile name =
    if name = c then true else disk.isfile name := by
  unfold Disk.isfile Disk.writeFile
  by_cases h : name = c
  · subst h
    rw [if_pos rfl]
    simp
  · rw [if_neg h]
    simp only [AList.lookup_insert_ne h]

/-- The disk with the entry of the `.cs` file `c` in the project file. -/
def Disk.addEntry (disk : Disk) (c : Text) : Disk :=
  { disk with csproj := some (Lines.insertBefore closesItemGroup
      (resourceLine (dropEnd c 3 ++ sqlSuffix)) disk.lines).flatten }

/-- `CreateCSFile` and `UpdateCSProjectFile`, where they do not fail. -/
def Disk.migrate (disk : Disk) (c content : Text) : Disk := (disk.writeFile c content).addEntry c

theorem isfile_migrate : (disk.migrate c content).isfile name =
    if name = c then true else disk.isfile name :=
  isfile_writeFile

/-- What was a file stays one. -/
theorem isfile_migrate_of_isfile (h : disk.isfile name = true) :
    (disk.migrate c content).isfile name = true := by
  rw [isfile_migrate, h]
  split <;> rfl

/-- A migration makes no `.sql` file. -/
theorem isSql_migrate (hc : endswith c csSuffix = true) :
    IsSql (disk.migrate c content) name ↔ IsSql disk name := by
  unfold IsSql
  rw [isfile_migrate]
  by_cases h : name = c
  · subst h
    simp [not_endswith_sql hc]
  · rw [if_neg h]

/-- An entry is one line, where the name of its file is. -/
theorem not_mem_resource (hc : '\n' ∉ c) : '\n' ∉ resource (dropEnd c 3 ++ sqlSuffix) := by
  intro hmem
  rcases List.mem_append.mp hmem with hmem | hmem
  · rcases List.mem_append.mp hmem with hmem | hmem
    · exact absurd hmem (by decide)
    · rcases List.mem_append.mp hmem with hmem | hmem
      · exact hc (List.mem_of_mem_take hmem)
      · exact absurd hmem (by decide)
  · exact absurd hmem (by decide)

/-- **The lines of the project file**, with the entry in front of one of them. -/
theorem exists_lines_migrate (hmark : ∃ line ∈ disk.lines, closesItemGroup line = true)
    (hc : '\n' ∉ c) : ∃ before behind, disk.lines = before ++ behind ∧
      (disk.migrate c content).lines =
        before ++ resourceLine (dropEnd c 3 ++ sqlSuffix) :: behind := by
  obtain ⟨before, behind, hne, hlines, hinsert⟩ :=
    Lines.exists_insertBefore (a := resourceLine (dropEnd c 3 ++ sqlSuffix)) hmark
  refine ⟨before, behind, hlines, ?_⟩
  have hwhole : Lines.IsLines '\n' (before ++ behind) := by
    rw [← hlines]
    exact Lines.isLines_readLines ..
  have hbody : '\n' ∉ "    ".toList ++ resource (dropEnd c 3 ++ sqlSuffix) := by
    intro hmem
    rcases List.mem_append.mp hmem with hmem | hmem
    · exact absurd hmem (by decide)
    · exact not_mem_resource hc hmem
  have hsame : (disk.writeFile c content).lines = disk.lines := rfl
  show Lines.readLines '\n' (Lines.insertBefore closesItemGroup _
    (disk.writeFile c content).lines).flatten = _
  rw [hsame, hinsert, resourceLine_eq]
  exact Lines.readLines_flatten (hwhole.insert hne hbody)

/-- **One file gets one entry more**, and the others none. -/
theorem entries_migrate (hmark : ∃ line ∈ disk.lines, closesItemGroup line = true) (hc : '\n' ∉ c) :
    (disk.migrate c content).entries name =
      disk.entries name + if name = dropEnd c 3 ++ sqlSuffix then 1 else 0 := by
  obtain ⟨before, behind, hlines, hmigrate⟩ := exists_lines_migrate hmark hc
  unfold Disk.entries
  rw [hmigrate, hlines, List.countP_append, List.countP_append, List.countP_cons,
    isEntryOf_resourceLine]
  simp only [decide_eq_true_eq]
  omega

/-- And no line is lost. -/
theorem sublist_migrate (hmark : ∃ line ∈ disk.lines, closesItemGroup line = true)
    (hc : '\n' ∉ c) : disk.lines.Sublist (disk.migrate c content).lines := by
  obtain ⟨before, behind, hlines, hmigrate⟩ := exists_lines_migrate hmark hc
  rw [hmigrate, hlines]
  exact (List.Sublist.refl before).append (List.sublist_cons_self ..)

/-! ## What the files are kept in -/

/-- **The two files agree**: a `.sql` file has one entry if it has its `.cs` file, and none
otherwise. And the project file has its lines still. -/
structure Sound (original : List Text) (disk : Disk) : Prop where
  named : ∀ name, IsSql disk name → Lines.OnlyAtEnd sqlSuffix name
  marked : (∃ line ∈ disk.lines, closesItemGroup line = true) ∨
    ∀ name, IsSql disk name → disk.isfile (csName name) = true
  counted : ∀ name, IsSql disk name →
    disk.entries name = if disk.isfile (csName name) = true then 1 else 0
  kept : original.Sublist disk.lines

/-- A prepared disk with its entries is one. -/
theorem Prepared.sound (h : Prepared disk) (hrecorded : Recorded disk) : Sound disk.lines disk where
  named := h.named
  marked := h.marked
  kept := List.Sublist.refl _
  counted name hsql := by
    have honce := h.once name hsql
    by_cases hcs : disk.isfile (csName name) = true
    · have hpos := hrecorded (csName name) hcs (endswith_csName hsql.2)
      rw [dropEnd_csName hsql.2] at hpos
      rw [if_pos hcs] at honce ⊢
      omega
    · rw [if_neg hcs] at honce ⊢
      omega

/-- **A migration that is done in full** keeps the files together. -/
theorem Sound.migrate (h : Sound original disk) (hsql : IsSql disk name)
    (hnew : disk.isfile (csName name) = false) (hc : '\n' ∉ csName name) :
    Sound original (disk.migrate (csName name) content) := by
  have hmark : ∃ line ∈ disk.lines, closesItemGroup line = true := by
    refine h.marked.resolve_right fun hall => ?_
    rw [hall name hsql] at hnew
    cases hnew
  have hsub : disk.lines.Sublist (disk.migrate (csName name) content).lines :=
    sublist_migrate hmark hc
  have hends := endswith_csName hsql.2
  refine ⟨fun name' hname' => h.named name' ((isSql_migrate hends).mp hname'), .inl ?_,
    fun name' hname' => ?_, h.kept.trans hsub⟩
  · obtain ⟨line, hline, hcloses⟩ := hmark
    exact ⟨line, hsub.subset hline, hcloses⟩
  · have hsql' := (isSql_migrate hends).mp hname'
    rw [entries_migrate hmark hc, dropEnd_csName hsql.2, h.counted name' hsql', isfile_migrate]
    by_cases hname : name' = name
    · subst hname
      simp [hnew]
    · have hcs : csName name' ≠ csName name := fun heq =>
        hname (csName_inj hsql'.2 hsql.2 heq)
      rw [if_neg hname, if_neg hcs, Nat.add_zero]

/-- What migrations leave as it was. -/
structure Keeps (disk disk' : Disk) : Prop where
  files : ∀ name, disk.isfile name = true → disk'.isfile name = true
  sqls : ∀ name, IsSql disk' name ↔ IsSql disk name

theorem Keeps.refl (disk : Disk) : Keeps disk disk := ⟨fun _ h => h, fun _ => Iff.rfl⟩

theorem Keeps.of_migrate {disk' : Disk} (hc : endswith c csSuffix = true)
    (h : Keeps (disk.migrate c content) disk') : Keeps disk disk' where
  files name hname := h.files name (isfile_migrate_of_isfile hname)
  sqls name := (h.sqls name).trans (isSql_migrate hc)

/-! ## The functions, where a failure is harmless -/

/-- The `.cs` file can be made: its name is `Migration_` and digits, and no folder has it. -/
structure Makable (disk : Disk) (c : Text) : Prop where
  startswith : startswith c migrationName = true
  endswith : endswith c csSuffix = true
  isdigit : isdigit (dropEnd (c.drop migrationName.length) 3) = true
  noFolder : disk.migrationFolder.lookup c ≠ some .folder

/-- Such a name is one line. -/
theorem Makable.not_mem (h : Makable disk c) : '\n' ∉ c := by
  obtain ⟨version, rfl⟩ := List.isPrefixOf_iff_prefix.mp h.startswith
  have hdigit := h.isdigit
  rw [List.drop_left] at hdigit
  simp only [DBMigrator.isdigit, Bool.and_eq_true, Bool.not_eq_true',
    List.isEmpty_eq_false_iff] at hdigit
  obtain ⟨hne, hall⟩ := hdigit
  have hlength : 3 < version.length := by
    have hpos := List.length_pos_of_ne_nil hne
    rw [dropEnd, List.length_take] at hpos
    omega
  -- what is cut off is `.cs`
  have hcs : csSuffix = version.drop (version.length - 3) := by
    have hsuffix : csSuffix <:+ version.drop (version.length - 3) := by
      refine List.suffix_of_suffix_length_le (endswith_iff.mp h.endswith)
        ((List.drop_suffix ..).trans (List.suffix_append ..)) ?_
      rw [List.length_drop]
      show 3 ≤ _
      omega
    refine hsuffix.eq_of_length ?_
    rw [List.length_drop]
    show 3 = _
    omega
  intro hmem
  rcases List.mem_append.mp hmem with hmem | hmem
  · exact absurd hmem (by decide)
  · rw [← List.take_append_drop (version.length - 3) version, ← hcs] at hmem
    rcases List.mem_append.mp hmem with hmem | hmem
    · exact absurd (List.all_eq_true.mp hall _ hmem) (by decide)
    · exact absurd hmem (by decide)

/-- `CreateCSFile` does nothing with another. -/
theorem createCSFile_of_not_makable (fault : Option FileOp) (h : ¬ Makable disk c) :
    createCSFile fault disk c = (false, disk) := by
  unfold createCSFile
  by_cases hname : startswith c migrationName = false ∨ endswith c csSuffix = false
  · exact if_pos hname
  rw [if_neg hname]
  by_cases hdigit : isdigit (dropEnd (c.drop migrationName.length) 3) = false
  · exact if_pos hdigit
  rw [if_neg hdigit]
  refine if_pos (.inr ?_)
  by_contra hfolder
  simp only [not_or, Bool.not_eq_false] at hname
  exact h ⟨hname.1, hname.2, Bool.not_eq_false _ ▸ hdigit, hfolder⟩

/-- Nor where it cannot open the file. -/
theorem createCSFile_openCs (disk : Disk) (c : Text) :
    createCSFile (some .openCs) disk c = (false, disk) := by
  simp [createCSFile]

/-- **Otherwise it makes the file**, and fails behind that only where the writing fails. -/
theorem createCSFile_of_makable (h : Makable disk c) (fault : Option FileOp)
    (hopen : fault ≠ some .openCs) :
    ∃ made content, createCSFile fault disk c = (made, disk.writeFile c content) ∧
      (made = false ↔ ∃ written, fault = some (.writeCs written)) := by
  unfold createCSFile
  rw [if_neg (by simp [h.startswith, h.endswith]), if_neg (by simp [h.isdigit])]
  simp only [hopen, h.noFolder, or_self, if_false]
  split
  · exact ⟨false, _, rfl, by simp⟩
  · rename_i hwrite
    refine ⟨true, _, rfl, ?_⟩
    simpa using hwrite

/-- **`CreateCSFile` does nothing, or makes the file.** -/
theorem createCSFile_cases (fault : Option FileOp) (disk : Disk) (c : Text) :
    createCSFile fault disk c = (false, disk) ∨ Makable disk c ∧ fault ≠ some .openCs ∧
      ∃ made content, createCSFile fault disk c = (made, disk.writeFile c content) ∧
        (made = false ↔ ∃ written, fault = some (.writeCs written)) := by
  by_cases hmakable : Makable disk c
  · by_cases hopen : fault = some .openCs
    · subst hopen
      exact .inl (createCSFile_openCs disk c)
    · exact .inr ⟨hmakable, hopen, createCSFile_of_makable hmakable fault hopen⟩
  · exact .inl (createCSFile_of_not_makable fault hmakable)

/-- **`UpdateCSProjectFile` puts the entry in**, whether closing the file fails or not. -/
theorem updateCSProjectFile_of_safe (h : fault = none ∨ fault = some .close)
    (hc : endswith c csSuffix = true) (hcsproj : disk.csproj ≠ none) :
    updateCSProjectFile fault disk c = (.returned (decide (fault = none)), disk.addEntry c) := by
  obtain ⟨text, htext⟩ := Option.ne_none_iff_exists'.mp hcsproj
  have hlines : Lines.readLines '\n' text = disk.lines := by rw [Disk.lines, htext]; rfl
  unfold updateCSProjectFile Disk.addEntry
  rw [if_neg (by rw [hc]; decide)]
  rcases h with rfl | rfl
  · simp [htext, hlines]
  · simp [htext, hlines]

/-! ## The runs -/

/-- What fails at a migration of a safe run. -/
theorem Safe.opAt {fault : Option Fault} (h : Safe fault) (index : ℕ) :
    Fault.opAt fault index = none ∨ Fault.opAt fault index = some .openCs ∨
      Fault.opAt fault index = some .close := by
  match fault, h with
  | none, _ | some .listdir, _ => exact .inl rfl
  | some (.migration i .openCs), _ =>
    simp only [Fault.opAt]
    split
    · exact .inr (.inl rfl)
    · exact .inl rfl
  | some (.migration i .close), _ =>
    simp only [Fault.opAt]
    split
    · exact .inr (.inr rfl)
    · exact .inl rfl

/-- The `.cs` files are those of `.sql` files, and not there. -/
def ToMake (disk : Disk) (names : List Text) : Prop :=
  ∀ c ∈ names, disk.isfile c = false ∧ ∃ name, IsSql disk name ∧ csName name = c

/-- What is to be made behind the first file. -/
theorem ToMake.migrate {names : List Text} (h : ToMake disk (c :: names)) (hc : c ∉ names) :
    ToMake (disk.migrate c content) names := by
  obtain ⟨-, name, hsql, rfl⟩ := h c List.mem_cons_self
  intro c' hc'
  obtain ⟨hnew, name', hsql', rfl⟩ := h c' (List.mem_cons_of_mem _ hc')
  refine ⟨?_, name', (isSql_migrate (endswith_csName hsql.2)).mpr hsql', rfl⟩
  rw [isfile_migrate, if_neg (ne_of_mem_of_not_mem hc' hc), hnew]

/-- **A migration is done in full** where nothing fails in it, or its last operation. -/
theorem exists_migrate (hfault : fault = none ∨ fault = some .close) (hmakable : Makable disk c)
    (hcsproj : disk.csproj ≠ none) : ∃ content,
      createCSFile fault disk c = (true, disk.writeFile c content) ∧
      updateCSProjectFile fault (disk.writeFile c content) c =
        (.returned (decide (fault = none)), disk.migrate c content) := by
  have hopen : fault ≠ some .openCs := by rintro rfl; simp at hfault
  obtain ⟨made, content, hcreate, hmade⟩ := createCSFile_of_makable hmakable fault hopen
  obtain rfl : made = true := by
    rw [← Bool.not_eq_false, hmade]
    rintro ⟨written, rfl⟩
    simp at hfault
  exact ⟨content, hcreate, updateCSProjectFile_of_safe hfault hmakable.endswith hcsproj⟩

/-- Then the loop goes on, -/
theorem generateLoop_cons {fault : Option Fault} {index : ℕ} (names : List Text)
    (hop : Fault.opAt fault index = none) (hmakable : Makable disk c)
    (hcsproj : disk.csproj ≠ none) : ∃ content, generateLoop fault index (c :: names) disk =
      generateLoop fault (index + 1) names (disk.migrate c content) := by
  obtain ⟨content, hcreate, hupdate⟩ := exists_migrate (.inl rfl) hmakable hcsproj
  exact ⟨content, by simp only [generateLoop, hop, hcreate, hupdate, decide_true]⟩

/-- or ends. -/
theorem generateLoop_close {fault : Option Fault} {index : ℕ} (names : List Text)
    (hop : Fault.opAt fault index = some .close) (hmakable : Makable disk c)
    (hcsproj : disk.csproj ≠ none) : ∃ content, generateLoop fault index (c :: names) disk =
      (.returned false, disk.migrate c content) := by
  obtain ⟨content, hcreate, hupdate⟩ := exists_migrate (.inr rfl) hmakable hcsproj
  refine ⟨content, ?_⟩
  simp only [generateLoop, hop, hcreate, hupdate]
  rfl

/-- **The loop of `DoGenerate`** keeps the files together, and a loop that gets to its end has made
every file. -/
theorem generateLoop_of_safe {fault : Option Fault} (hsafe : Safe fault) {names : List Text}
    (index : ℕ) (hsound : Sound original disk) (hcsproj : disk.csproj ≠ none)
    (hnames : ToMake disk names) (hnodup : names.Nodup) :
    Sound original (generateLoop fault index names disk).2 ∧
      ((generateLoop fault index names disk).1 = .returned true →
        Keeps disk (generateLoop fault index names disk).2 ∧
        ∀ c ∈ names, (generateLoop fault index names disk).2.isfile c = true) := by
  induction names generalizing index disk with
  | nil => exact ⟨hsound, fun _ => ⟨.refl disk, fun c hc => by cases hc⟩⟩
  | cons c names ih =>
    obtain ⟨hfirst, hrest⟩ := List.nodup_cons.mp hnodup
    obtain ⟨hnew, name, hsql, rfl⟩ := hnames c List.mem_cons_self
    have hends := endswith_csName hsql.2
    have hstops : createCSFile (Fault.opAt fault index) disk (csName name) = (false, disk) →
        generateLoop fault index (csName name :: names) disk = (.returned false, disk) := by
      intro hcreate
      simp only [generateLoop, hcreate]
    by_cases hmakable : Makable disk (csName name)
    · rcases hsafe.opAt index with hnone | hopen | hclose
      · obtain ⟨content, hloop⟩ := generateLoop_cons names hnone hmakable hcsproj
        obtain ⟨hafter, hdone⟩ := ih (index + 1) (hsound.migrate hsql hnew hmakable.not_mem)
          (Option.some_ne_none _) (hnames.migrate hfirst) hrest
        rw [hloop]
        refine ⟨hafter, fun htrue => ?_⟩
        obtain ⟨hkeeps, hmade⟩ := hdone htrue
        refine ⟨hkeeps.of_migrate hends, List.forall_mem_cons.mpr ⟨?_, hmade⟩⟩
        refine hkeeps.files _ ?_
        rw [isfile_migrate, if_pos rfl]
      · rw [hstops (by rw [hopen, createCSFile_openCs])]
        exact ⟨hsound, fun h => by cases h⟩
      · obtain ⟨content, hloop⟩ := generateLoop_close names hclose hmakable hcsproj
        rw [hloop]
        exact ⟨hsound.migrate hsql hnew hmakable.not_mem, fun h => by cases h⟩
    · rw [hstops (createCSFile_of_not_makable _ hmakable)]
      exact ⟨hsound, fun h => by cases h⟩

theorem mem_sqlFileList : name ∈ (makeAppendFileList disk).1 ↔ IsSql disk name := by
  simp only [makeAppendFileList, List.mem_filter, Bool.and_eq_true, IsSql]
  refine and_iff_right_of_imp fun h => ?_
  have hfile := h.1
  unfold Disk.isfile at hfile
  split at hfile
  · rename_i content hlookup
    exact AList.mem_keys.mpr (AList.lookup_isSome.mp (by rw [hlookup]; rfl))
  · cases hfile

/-- **The files to be made**: those of the `.sql` files that have none. -/
theorem mem_csFileList (hnamed : ∀ name, IsSql disk name → Lines.OnlyAtEnd sqlSuffix name) :
    c ∈ (makeAppendFileList disk).2 ↔
      disk.isfile c = false ∧ ∃ name, IsSql disk name ∧ csName name = c := by
  show c ∈ List.filter _ (List.map _ (makeAppendFileList disk).1) ↔ _
  simp only [List.mem_filter, List.mem_map, mem_sqlFileList, Bool.not_eq_true']
  rw [and_comm]
  refine and_congr_right fun _ => exists_congr fun name => and_congr_right fun hsql => ?_
  rw [replace_eq_csName hsql.2 (hnamed name hsql)]

/-- No file is to be made twice. -/
theorem nodup_csFileList (hnamed : ∀ name, IsSql disk name → Lines.OnlyAtEnd sqlSuffix name) :
    (makeAppendFileList disk).2.Nodup := by
  have hkeys : (makeAppendFileList disk).1.Nodup := disk.migrationFolder.keys_nodup.filter _
  refine (List.Nodup.map_on (fun name hname name' hname' heq => ?_) hkeys).filter _
  have hsql := mem_sqlFileList.mp hname
  have hsql' := mem_sqlFileList.mp hname'
  rw [replace_eq_csName hsql.2 (hnamed name hsql),
    replace_eq_csName hsql'.2 (hnamed name' hsql')] at heq
  exact csName_inj hsql.2 hsql'.2 heq

/-- **A run of `DoGenerate`** keeps the files together, and one that returns `True` leaves no `.sql`
file without its `.cs` file. -/
theorem doGenerate_of_safe {fault : Option Fault} (hsafe : Safe fault)
    (hsound : Sound original disk) : Sound original (doGenerate fault disk).2 ∧
      ((doGenerate fault disk).1 = .returned true → ∀ name, IsSql (doGenerate fault disk).2 name →
        (doGenerate fault disk).2.isfile (csName name) = true) := by
  unfold doGenerate
  cases hcsproj : disk.csproj with
  | none => exact ⟨hsound, fun h => by cases h⟩
  | some text =>
    by_cases hlistdir : fault = some .listdir
    · simp only [if_pos hlistdir]
      exact ⟨hsound, fun h => by cases h⟩
    · simp only [if_neg hlistdir]
      obtain ⟨hafter, hdone⟩ := generateLoop_of_safe hsafe 0 hsound (by rw [hcsproj]; simp)
        (fun c hc => (mem_csFileList hsound.named).mp hc) (nodup_csFileList hsound.named)
      refine ⟨hafter, fun htrue name hname => ?_⟩
      obtain ⟨hkeeps, hmade⟩ := hdone htrue
      have hsql := (hkeeps.sqls name).mp hname
      cases hcs : disk.isfile (csName name) with
      | true => exact hkeeps.files _ hcs
      | false => exact hmade _ ((mem_csFileList hsound.named).mpr ⟨hcs, name, hsql, rfl⟩)

/-- **After every run that returns `True`, each `.sql` file has its `.cs` file and one entry**, in
every sequence of runs whose failures are harmless, from a disk the generator can work on. -/
theorem generated_of_safe {m m' : Migrator} {faults : List (Option Fault)} (hinit : migrator.Init m)
    (hprepared : Prepared m.disk) (hr : migrator.run m faults = some m')
    (hsafe : ∀ fault ∈ faults, Safe fault) : Generated m.disk.lines m' := by
  have hinv : Sound m.disk.lines m'.disk ∧ (m'.last = some (.returned true) →
      ∀ name, IsSql m'.disk name → m'.disk.isfile (csName name) = true) := by
    refine System.Meets.invariant (C := fun _ fault => Safe fault) (P := fun m' : Migrator =>
      Sound m.disk.lines m'.disk ∧ (m'.last = some (.returned true) →
        ∀ name, IsSql m'.disk name → m'.disk.isfile (csName name) = true))
      (fun s fault s' hs hfault hstep => ?_) (System.meets_of_forall hsafe) hr ?_
    · obtain rfl := Option.some.inj hstep
      obtain ⟨hsound, hmade⟩ := doGenerate_of_safe hfault hs.1
      exact ⟨hsound, fun hlast => hmade (Option.some.inj hlast)⟩
    · refine ⟨hprepared.sound hinit.2, fun hlast => ?_⟩
      rw [hinit.1] at hlast
      cases hlast
  intro hlast
  refine ⟨fun name hsql => ?_, hinv.1.kept⟩
  have hcs := hinv.2 hlast name hsql
  refine ⟨hcs, ?_⟩
  rw [hinv.1.counted name hsql, if_pos hcs]

/-! ## One migration to be made -/

/-- A folder with one `.sql` file. -/
def firstMigration : Disk := Disk.writeFile
  { csproj := some "<ItemGroup>\n</ItemGroup>\n".toList, migrationFolder := ∅ }
  "Migration_1.sql".toList []

theorem isfile_firstMigration (h : firstMigration.isfile name = true) :
    name = "Migration_1.sql".toList := by
  by_contra hne
  rw [firstMigration, isfile_writeFile, if_neg hne] at h
  cases h

theorem init_firstMigration : migrator.Init { disk := firstMigration, last := none } := by
  refine ⟨rfl, fun name hname hcs => ?_⟩
  obtain rfl := isfile_firstMigration hname
  exact absurd hcs (by decide)

theorem prepared_firstMigration : Prepared firstMigration where
  named name h := by
    obtain rfl := isfile_firstMigration h.1
    decide
  marked := .inl (by decide)
  once name h := by
    obtain rfl := isfile_firstMigration h.1
    decide

/-- The `.cs` file cannot be opened, and then it can. -/
theorem generated_openCs : ∃ m, migrator.run { disk := firstMigration, last := none }
      [some (.migration 0 .openCs), none] = some m ∧
    m.last = some (.returned true) ∧ Generated firstMigration.lines m := by
  obtain ⟨m, -, hr, hlast⟩ := System.exists_run migrator [some (.migration 0 .openCs), none]
    (c := fun _ _ => true) (f := fun m => decide (m.last = some (.returned true)))
    (s := { disk := firstMigration, last := none }) (by decide +kernel)
  refine ⟨m, hr, of_decide_eq_true hlast, ?_⟩
  refine generated_of_safe init_firstMigration prepared_firstMigration hr fun fault hfault => ?_
  simp only [List.mem_cons, List.not_mem_nil, or_false] at hfault
  obtain rfl | rfl := hfault
  · trivial
  · trivial

/-- **The project file cannot be opened, and then it can**: the `.cs` file is there by then, and the
run returns `True` without an entry. -/
theorem not_generated_openRead : ∃ m,
    migrator.Init { disk := firstMigration, last := none } ∧
    migrator.run { disk := firstMigration, last := none }
      [some (.migration 0 .openRead), none] = some m ∧
    m.last = some (.returned true) ∧ m.disk.entries "Migration_1.sql".toList = 0 ∧
    ¬ Generated firstMigration.lines m := by
  obtain ⟨m, -, hr, hm⟩ := System.exists_run migrator [some (.migration 0 .openRead), none]
    (c := fun _ _ => true) (f := fun m => decide (m.last = some (.returned true) ∧
      m.disk.isfile "Migration_1.sql".toList = true ∧
      m.disk.entries "Migration_1.sql".toList = 0))
    (s := { disk := firstMigration, last := none }) (by decide +kernel)
  obtain ⟨hlast, hfile, hnone⟩ := of_decide_eq_true hm
  refine ⟨m, init_firstMigration, hr, hlast, hnone, fun h => ?_⟩
  have hone := ((h hlast).1 "Migration_1.sql".toList ⟨hfile, by decide⟩).2
  rw [hnone] at hone
  cases hone

end DBMigrator

end DdingGameServer
