import DdingGameServer.DBMigrator.Generate
/-!
# DBMigrator — what no rerun repairs

A failure between the two files leaves a `.cs` file without its entry (`unrecorded_of_fault`), and a
`.sql` file that has its `.cs` file is not looked at again: its entries stay as many as they are,
whatever runs follow (`leaves_of_run`). So no run that returns `True` behind such a failure leaves
what it should. Nor is a project file noticed that has no line for the entries to go in front of.
-/

namespace DdingGameServer

namespace DBMigrator

/-- The project file is not left half written. -/
def KeepsProject (fault : Option Fault) : Prop :=
  ∀ index written, fault ≠ some (.migration index (.writelines written))

/-- The failure comes between the two files of a migration: the `.cs` file is open, and nothing of the
project file is written. -/
def FileOp.Between : FileOp → Prop
  | .writeCs _ | .openRead | .readlines | .openWrite => True
  | _ => False

variable {disk : Disk} {fault : Option Fault} {name c : Text} {names : List Text} {op : FileOp}
  {original : List Text} {index : ℕ}

/-! ## A file that is there is left alone -/

/-- Where no line closes an item group, nothing is inserted. -/
theorem insertBefore_of_not_marked (hmark : ¬ ∃ line ∈ disk.lines, closesItemGroup line = true)
    (line : Text) : Lines.insertBefore closesItemGroup line disk.lines = disk.lines := by
  refine Lines.insertBefore_of_forall fun line hline => ?_
  rw [← Bool.not_eq_true]
  exact fun hcloses => hmark ⟨line, hline, hcloses⟩

/-- **`UpdateCSProjectFile` writes such a project file back as it was**, and returns `True`. -/
theorem updateCSProjectFile_of_not_marked (hc : endswith c csSuffix = true)
    (hcsproj : disk.csproj ≠ none)
    (hmark : ¬ ∃ line ∈ disk.lines, closesItemGroup line = true) :
    updateCSProjectFile none disk c = (.returned true, disk) := by
  obtain ⟨text, htext⟩ := Option.ne_none_iff_exists'.mp hcsproj
  have hback : disk.addEntry c = disk := by
    have hflatten : disk.lines.flatten = text := by
      rw [Disk.lines, htext]
      exact Lines.flatten_readLines '\n' text
    unfold Disk.addEntry
    rw [insertBefore_of_not_marked hmark, hflatten, ← htext]
  rw [updateCSProjectFile_of_safe (.inl rfl) hc hcsproj, hback]
  rfl

/-- An entry is one of its own file only. -/
theorem entries_addEntry_of_ne (hc : '\n' ∉ c) (hne : name ≠ dropEnd c 3 ++ sqlSuffix) :
    (disk.addEntry c).entries name = disk.entries name := by
  by_cases hmark : ∃ line ∈ disk.lines, closesItemGroup line = true
  · have hentries : (disk.migrate c []).entries name = _ := entries_migrate hmark hc
    rw [if_neg hne, Nat.add_zero] at hentries
    exact hentries
  · have hlines : (disk.addEntry c).lines = disk.lines := by
      show Lines.readLines '\n' (Lines.insertBefore _ _ disk.lines).flatten = disk.lines
      rw [insertBefore_of_not_marked hmark]
      exact Lines.readLines_flatten (Lines.isLines_readLines ..)
    rw [Disk.entries, hlines, Disk.entries]

/-- **`UpdateCSProjectFile` leaves the disk, or puts the entry in.** -/
theorem updateCSProjectFile_cases {fault : Option FileOp} (disk : Disk) (c : Text)
    (hwrite : ∀ written, fault ≠ some (.writelines written)) :
    (updateCSProjectFile fault disk c).2 = disk ∨
      (updateCSProjectFile fault disk c).2 = disk.addEntry c := by
  unfold updateCSProjectFile
  split
  · exact .inl rfl
  split
  · exact .inl rfl
  · exact .inl rfl
  · exact .inl rfl
  · exact .inl rfl
  · rename_i content _ _ _ hcsproj
    have hlines : Lines.readLines '\n' content = disk.lines := by rw [Disk.lines, hcsproj]; rfl
    rw [hlines]
    split
    · exact absurd rfl (hwrite _)
    · exact .inr rfl
    · exact .inr rfl

/-- What a loop leaves of the entries and the files, on a disk. -/
structure Leaves (name : Text) (disk disk' : Disk) : Prop where
  entries : disk'.entries name = disk.entries name
  files : ∀ file, disk.isfile file = true → disk'.isfile file = true

theorem Leaves.refl (name : Text) (disk : Disk) : Leaves name disk disk := ⟨rfl, fun _ h => h⟩

theorem Leaves.trans {disk' disk'' : Disk} (h : Leaves name disk disk')
    (h' : Leaves name disk' disk'') : Leaves name disk disk'' :=
  ⟨h'.entries.trans h.entries, fun file hfile => h'.files file (h.files file hfile)⟩

/-- A `.cs` file is written. -/
theorem leaves_writeFile {content : Text} : Leaves name disk (disk.writeFile c content) := by
  refine ⟨rfl, fun file hfile => ?_⟩
  rw [isfile_writeFile, hfile]
  split <;> rfl

/-- And the project file, for another one. -/
theorem leaves_addEntry (hc : '\n' ∉ c) (hends : endswith c csSuffix = true)
    (hne : c ≠ csName name) : Leaves name disk (disk.addEntry c) := by
  refine ⟨entries_addEntry_of_ne hc fun hname => hne ?_, fun _ h => h⟩
  obtain ⟨base, rfl⟩ := endswith_iff.mp hends
  rw [hname, csName_append]
  exact congrArg (· ++ csSuffix) (dropEnd_append base csSuffix).symm

/-- **The loop leaves the entries of a file that it has not to make.** -/
theorem leaves_generateLoop (hkeeps : KeepsProject fault) (hname : csName name ∉ names) :
    Leaves name disk (generateLoop fault index names disk).2 := by
  induction names generalizing index disk with
  | nil => exact .refl name disk
  | cons c names ih =>
    obtain ⟨hne, hrest⟩ := not_or.mp (mt List.mem_cons.mpr hname)
    have hwrite : ∀ written, Fault.opAt fault index ≠ some (.writelines written) := by
      intro written hop
      unfold Fault.opAt at hop
      split at hop
      · split at hop
        · exact hkeeps _ written (congrArg (some <| Fault.migration _ ·) (Option.some.inj hop))
        · cases hop
      · cases hop
    rcases createCSFile_cases (Fault.opAt fault index) disk c with
      hcreate | ⟨hmakable, -, made, content, hcreate, -⟩
    · simp only [generateLoop, hcreate]
      exact .refl name disk
    · have hwritten : Leaves name disk (disk.writeFile c content) := leaves_writeFile
      cases made with
      | false =>
        simp only [generateLoop, hcreate]
        exact hwritten
      | true =>
        have hupdated : Leaves name disk
            (updateCSProjectFile (Fault.opAt fault index) (disk.writeFile c content) c).2 := by
          rcases updateCSProjectFile_cases (disk.writeFile c content) c hwrite with
            hsame | hentry
          · rw [hsame]
            exact hwritten
          · rw [hentry]
            exact hwritten.trans (leaves_addEntry hmakable.not_mem hmakable.endswith (Ne.symm hne))
        simp only [generateLoop, hcreate]
        split
        · rename_i disk' hupdate
          rw [hupdate] at hupdated
          exact hupdated.trans (ih hrest)
        · exact hupdated

/-- A file that is there is not to be made. -/
theorem not_mem_csFileList (h : disk.isfile c = true) : c ∉ (makeAppendFileList disk).2 := by
  intro hmem
  have hnew := (List.mem_filter.mp hmem).2
  rw [h] at hnew
  cases hnew

/-- So does a run of `DoGenerate`. -/
theorem leaves_doGenerate (hkeeps : KeepsProject fault)
    (hcs : disk.isfile (csName name) = true) : Leaves name disk (doGenerate fault disk).2 := by
  unfold doGenerate
  split
  · exact .refl name disk
  · split
    · exact .refl name disk
    · exact leaves_generateLoop hkeeps (not_mem_csFileList hcs)

/-- **A `.sql` file that has its `.cs` file keeps its entries**, as many as they are, in every
sequence of runs that does not leave the project file half written. -/
theorem leaves_of_run {m m' : Migrator} {faults : List (Option Fault)}
    (hcs : m.disk.isfile (csName name) = true) (hr : migrator.run m faults = some m')
    (hkeeps : ∀ fault ∈ faults, KeepsProject fault) : Leaves name m.disk m'.disk := by
  refine System.Meets.invariant (C := fun _ fault => KeepsProject fault)
    (P := fun m' : Migrator => Leaves name m.disk m'.disk) (fun s fault s' hs hfault hstep => ?_)
    (System.meets_of_forall hkeeps) hr (.refl name m.disk)
  obtain rfl := Option.some.inj hstep
  exact hs.trans (leaves_doGenerate hfault (hs.files _ hcs))

/-- **No rerun makes good for a missing entry.** -/
theorem not_generated_of_unrecorded {m m' : Migrator} {faults : List (Option Fault)}
    (hsql : IsSql m.disk name) (hcs : m.disk.isfile (csName name) = true)
    (hentries : m.disk.entries name ≠ 1) (hr : migrator.run m faults = some m')
    (hkeeps : ∀ fault ∈ faults, KeepsProject fault) (hlast : m'.last = some (.returned true)) :
    ¬ Generated original m' := by
  intro h
  have hleaves := leaves_of_run hcs hr hkeeps
  have hone := ((h hlast).1 name ⟨hleaves.files _ hsql.1, hsql.2⟩).2
  rw [hleaves.entries] at hone
  exact hentries hone

/-! ## A failure between the two files -/

/-- What is left where a migration fails between the files. -/
def Unrecorded (disk : Disk) : Prop := ∃ name, IsSql disk name ∧
  disk.isfile (csName name) = true ∧ disk.entries name = 0

/-- A migration that fails between the files has made the `.cs` file, and that is all. -/
theorem generateLoop_between (index : ℕ) (names : List Text) (hop : op.Between)
    (hmakable : Makable disk c) :
    ∃ content, (generateLoop (some (.migration index op)) index (c :: names) disk).2 =
      disk.writeFile c content := by
  have hopAt : Fault.opAt (some (.migration index op)) index = some op := if_pos rfl
  have hopen : (some op : Option FileOp) ≠ some .openCs := by
    rintro h
    rw [Option.some.inj h] at hop
    exact hop
  obtain ⟨made, content, hcreate, hmade⟩ := createCSFile_of_makable hmakable _ hopen
  refine ⟨content, ?_⟩
  cases made with
  | false => simp only [generateLoop, hopAt, hcreate]
  | true =>
    have hwrite : ∀ written, op ≠ .writeCs written := by
      rintro written rfl
      exact absurd (hmade.mpr ⟨written, rfl⟩) (by decide)
    have hupdate : (updateCSProjectFile (some op) (disk.writeFile c content) c).2 =
        disk.writeFile c content ∧
        (updateCSProjectFile (some op) (disk.writeFile c content) c).1 ≠ .returned true := by
      unfold updateCSProjectFile
      rw [if_neg (by simp [hmakable.endswith])]
      cases op with
      | writeCs written => exact absurd rfl (hwrite written)
      | openRead => exact ⟨rfl, by simp⟩
      | readlines | openWrite =>
        cases (disk.writeFile c content).csproj with
        | none => exact ⟨rfl, by simp⟩
        | some _ => exact ⟨rfl, by simp⟩
      | openCs | writelines _ | close => exact hop.elim
    simp only [generateLoop, hopAt, hcreate]
    split
    · rename_i hreturned
      exact absurd (congrArg Prod.fst hreturned) hupdate.2
    · exact hupdate.1

/-- A migration leaves the other names as they are. -/
theorem Makable.migrate {content c' : Text} (h : Makable disk c') (hne : c' ≠ c) :
    Makable (disk.migrate c content) c' := by
  refine ⟨h.startswith, h.endswith, h.isdigit, ?_⟩
  have hlookup : (disk.migrate c content).migrationFolder.lookup c' =
      disk.migrationFolder.lookup c' := AList.lookup_insert_ne hne
  rw [hlookup]
  exact h.noFolder

/-- **A loop that is cut short between the two files** leaves a file without its entry. -/
theorem unrecorded_generateLoop (index : ℕ) (hop : op.Between) {k : ℕ} (hsound : Sound original disk)
    (hcsproj : disk.csproj ≠ none) (hnames : ToMake disk names) (hnodup : names.Nodup)
    (hmakable : ∀ c ∈ names, Makable disk c) (hk : k < names.length) :
    Unrecorded (generateLoop (some (.migration (index + k) op)) index names disk).2 := by
  induction names generalizing index disk k with
  | nil => exact absurd hk (Nat.not_lt_zero k)
  | cons c names ih =>
    obtain ⟨hnew, name, hsql, rfl⟩ := hnames c List.mem_cons_self
    obtain ⟨hfirst, hrest⟩ := List.nodup_cons.mp hnodup
    have hmake := hmakable (csName name) List.mem_cons_self
    have hends := endswith_csName hsql.2
    cases k with
    | zero =>
      obtain ⟨content, hloop⟩ := generateLoop_between index names hop hmake
      have hsql' : IsSql (disk.migrate (csName name) content) name :=
        (isSql_migrate hends).mpr hsql
      rw [Nat.add_zero, hloop]
      refine ⟨name, hsql', ?_, ?_⟩
      · rw [isfile_writeFile, if_pos rfl]
      · show disk.entries name = 0
        rw [hsound.counted name hsql, hnew]
        rfl
    | succ k =>
      have hop' : Fault.opAt (some (.migration (index + (k + 1)) op)) index = none :=
        if_neg (by omega)
      obtain ⟨content, hloop⟩ := generateLoop_cons names hop' hmake hcsproj
      have hindex : index + (k + 1) = index + 1 + k := by omega
      rw [hloop, hindex]
      refine ih (index + 1) (hsound.migrate hsql hnew hmake.not_mem) (Option.some_ne_none _)
        (hnames.migrate hfirst) hrest (fun c hc => ?_) (Nat.lt_of_succ_lt_succ hk)
      exact (hmakable c (List.mem_cons_of_mem _ hc)).migrate (ne_of_mem_of_not_mem hc hfirst)

/-- **A run that is cut short between the two files** leaves a file without its entry. -/
theorem unrecorded_of_fault (hop : op.Between) (hsound : Sound original disk)
    (hcsproj : disk.csproj ≠ none)
    (hmakable : ∀ c ∈ (makeAppendFileList disk).2, Makable disk c)
    (hindex : index < (makeAppendFileList disk).2.length) :
    Unrecorded (doGenerate (some (.migration index op)) disk).2 := by
  obtain ⟨text, htext⟩ := Option.ne_none_iff_exists'.mp hcsproj
  have hgenerate : doGenerate (some (.migration index op)) disk =
      generateLoop (some (.migration index op)) 0 (makeAppendFileList disk).2 disk := by
    unfold doGenerate
    rw [htext]
    rfl
  have hloop := unrecorded_generateLoop 0 hop hsound hcsproj
    (fun c hc => (mem_csFileList hsound.named).mp hc) (nodup_csFileList hsound.named) hmakable
    hindex
  rw [hgenerate]
  rw [Nat.zero_add] at hloop
  exact hloop

/-- **Behind such a run none that returns `True` leaves what it should**, where the files agreed
before it and everything could be made. -/
theorem not_generated_of_fault {m m' : Migrator} {faults : List (Option Fault)}
    (hop : op.Between) (hsound : Sound original m.disk) (hcsproj : m.disk.csproj ≠ none)
    (hmakable : ∀ c ∈ (makeAppendFileList m.disk).2, Makable m.disk c)
    (hindex : index < (makeAppendFileList m.disk).2.length)
    (hr : migrator.run m (some (.migration index op) :: faults) = some m')
    (hkeeps : ∀ fault ∈ faults, KeepsProject fault) (hlast : m'.last = some (.returned true)) :
    ¬ Generated original m' := by
  obtain ⟨m₁, hfirst, hrest⟩ := System.run_cons_eq_some.mp hr
  obtain rfl := Option.some.inj hfirst
  obtain ⟨name, hsql, hcs, hnone⟩ := unrecorded_of_fault hop hsound hcsproj hmakable hindex
  have hmissing : (doGenerate (some (.migration index op)) m.disk).2.entries name ≠ 1 := by
    rw [hnone]
    exact Nat.zero_ne_one
  exact not_generated_of_unrecorded hsql hcs hmissing hrest hkeeps hlast

end DBMigrator

end DdingGameServer
