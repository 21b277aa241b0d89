import DdingGameServer.Common.EntryMap
import DdingGameServer.Common.Lines
import DdingGameServer.Common.System
/-!
# DBMigrator — the generator of migrations

`DoGenerate` makes a `.cs` file for every `.sql` file of `DBMigration/` that has none, and puts an
`EmbeddedResource` line for the `.sql` file into `Migrator.csproj`: two files one after the other,
and the first decides alone whether a later run does anything. A run is given the file operation
that fails in it, and is cut short there. What a failing write has written by then is any part of
the text.

Texts are as Python's text mode has them, with `\n` at the end of a line, and file names are told
apart by their case. `os.path.isfile` does not fail: it returns `False`. The folder is listed in the
order of the map.
-/

namespace DdingGameServer

namespace DBMigrator

abbrev Text := List Char

/-- What a name of `DBMigration/` stands for. -/
inductive Item
  | file (content : Text)
  | folder
  deriving DecidableEq, Repr

/-- The files the generator reads and writes. -/
structure Disk where
  /-- `Migrator.csproj`, where it is a file. -/
  csproj : Option Text
  /-- `DBMigration/`. -/
  migrationFolder : EntryMap Text Item

/-- The file operations of one migration. A failing write has written a part of its text. -/
inductive FileOp
  /-- Open the `.cs` file, write and close it. -/
  | openCs
  | writeCs (written : ℕ)
  /-- Open `Migrator.csproj`, read and close it. -/
  | openRead
  | readlines
  /-- Open it again, which empties it, write and close it. -/
  | openWrite
  | writelines (written : ℕ)
  | close
  deriving DecidableEq, Repr

/-- Where a run is cut short. -/
inductive Fault
  | listdir
  /-- At the migration `index` of the run. -/
  | migration (index : ℕ) (op : FileOp)
  deriving DecidableEq, Repr

/-- How a function of the generator ends. -/
inductive Outcome
  | returned (result : Bool)
  /-- An exception leaves it. -/
  | raised
  deriving DecidableEq, Repr

/-! ## Texts -/

def migrationFolderPath : Text := "DBMigration/".toList
def withMigratorLocation : Text := "../Migrator/".toList
def sqlSuffix : Text := ".sql".toList
def csSuffix : Text := ".cs".toList
def migrationName : Text := "Migration_".toList
def itemGroupEnd : Text := "</ItemGroup>".toList

/-- The characters of `str.isdigit`, from and to. -/
def digitRanges : List (ℕ × ℕ) :=
  [(48, 57), (178, 179), (185, 185), (1632, 1641), (1776, 1785), (1984, 1993), (2406, 2415),
    (2534, 2543), (2662, 2671), (2790, 2799), (2918, 2927), (3046, 3055), (3174, 3183),
    (3302, 3311), (3430, 3439), (3558, 3567), (3664, 3673), (3792, 3801), (3872, 3881),
    (4160, 4169), (4240, 4249), (4969, 4977), (6112, 6121), (6160, 6169), (6470, 6479),
    (6608, 6618), (6784, 6793), (6800, 6809), (6992, 7001), (7088, 7097), (7232, 7241),
    (7248, 7257), (8304, 8304), (8308, 8313), (8320, 8329), (9312, 9320), (9332, 9340),
    (9352, 9360), (9450, 9450), (9461, 9469), (9471, 9471), (10102, 10110), (10112, 10120),
    (10122, 10130), (42528, 42537), (43216, 43225), (43264, 43273), (43472, 43481), (43504, 43513),
    (43600, 43609), (44016, 44025), (65296, 65305), (66720, 66729), (68160, 68163), (68912, 68921),
    (69216, 69224), (69714, 69722), (69734, 69743), (69872, 69881), (69942, 69951), (70096, 70105),
    (70384, 70393), (70736, 70745), (70864, 70873), (71248, 71257), (71360, 71369), (71472, 71481),
    (71904, 71913), (72016, 72025), (72784, 72793), (73040, 73049), (73120, 73129), (92768, 92777),
    (92864, 92873), (93008, 93017), (120782, 120831), (123200, 123209), (123632, 123641),
    (125264, 125273), (127232, 127242), (130032, 130041)]

/-- `str.isdigit`. -/
def isdigit (text : Text) : Bool :=
  !text.isEmpty && text.all fun c =>
    digitRanges.any fun range => decide (range.1 ≤ c.toNat ∧ c.toNat ≤ range.2)

def startswith (text start : Text) : Bool := start.isPrefixOf text

def endswith (text suffix : Text) : Bool := suffix.isSuffixOf text

/-- `text[:-n]`. -/
def dropEnd (text : Text) (n : ℕ) : Text := text.take (text.length - n)

/-! ## GenerateMigration.py and MakeCSFile.py -/

/-- `os.path.isfile`, in `DBMigration/`. -/
def Disk.isfile (disk : Disk) (name : Text) : Bool :=
  match disk.migrationFolder.lookup name with
  | some (.file _) => true
  | _ => false

/-- Write a file of `DBMigration/`. -/
def Disk.writeFile (disk : Disk) (name content : Text) : Disk :=
  { disk with migrationFolder := disk.migrationFolder.insert name (.file content) }

/-- `MakeAppendFileList`: the `.sql` files, and the names of the `.cs` files to be made. -/
def makeAppendFileList (disk : Disk) : List Text × List Text :=
  let sqlFileList := disk.migrationFolder.keys.filter fun fileName =>
    disk.isfile fileName && endswith fileName sqlSuffix
  let csFileNames := sqlFileList.map (Lines.replace sqlSuffix csSuffix)
  (sqlFileList, csFileNames.filter fun csFileName => !disk.isfile csFileName)

/-- What `CreateCSFile` writes. -/
def csFileText (migrationVersionInfo : Text) : Text :=
  "using FluentMigrator;\n\n".toList ++
  "namespace Migrator.DBMigration\n".toList ++
  "\x7b\n".toList ++
  "\t[Migration(".toList ++ migrationVersionInfo ++ ")]\n".toList ++
  "\tpublic class Migration_".toList ++ migrationVersionInfo ++ ": Migration\n".toList ++
  "\t\x7b\n".toList ++
  "\t\tpublic override void Up()\n".toList ++
  "\t\t\x7b\n".toList ++
  "\t\t\tExecute.EmbeddedScript(\"Migration_".toList ++ migrationVersionInfo ++
    ".sql\");\n".toList ++
  "\t\t\x7d\n\n".toList ++
  "\t\tpublic override void Down()\n".toList ++
  "\t\t\x7b\n".toList ++
  "\t\t\x7d\n".toList ++
  "\t\x7d\n".toList ++
  "\x7d\n".toList

/-- `CreateCSFile`, where `fault` fails. -/
def createCSFile (fault : Option FileOp) (disk : Disk) (csFileName : Text) : Bool × Disk :=
  if startswith csFileName migrationName = false ∨ endswith csFileName csSuffix = false then
    (false, disk)
  else
    let migrationVersionInfo := dropEnd (csFileName.drop migrationName.length) 3
    if isdigit migrationVersionInfo = false then (false, disk)
    else
      let content := csFileText migrationVersionInfo
      -- a folder cannot be opened for writing
      if fault = some .openCs ∨ disk.migrationFolder.lookup csFileName = some .folder then
        (false, disk)
      else match fault with
        | some (.writeCs written) => (false, disk.writeFile csFileName (content.take written))
        | _ => (true, disk.writeFile csFileName content)

/-- The line of a `.sql` file. -/
def resourceLine (sqlFileName : Text) : Text :=
  "    <EmbeddedResource Include=\"".toList ++ withMigratorLocation ++ migrationFolderPath ++
    sqlFileName ++ "\" />".toList ++ "\n".toList

/-- `'</ItemGroup>' in line`. -/
def closesItemGroup (line : Text) : Bool := decide (itemGroupEnd <:+: line)

/-- `UpdateCSProjectFile`, where `fault` fails. -/
def updateCSProjectFile (fault : Option FileOp) (disk : Disk) (csFileName : Text) :
    Outcome × Disk :=
  if endswith csFileName csSuffix = false then (.returned false, disk)
  else
    let sqlFileName := dropEnd csFileName 3 ++ sqlSuffix
    match fault, disk.csproj with
    -- the handler closes the file that was not opened
    | some .openRead, _ | _, none => (.raised, disk)
    | some .readlines, _ | some .openWrite, _ => (.returned false, disk)
    | fault, some content =>
      let lines := Lines.insertBefore closesItemGroup (resourceLine sqlFileName)
        (Lines.readLines '\n' content)
      match fault with
      | some (.writelines written) =>
        (.returned false, { disk with csproj := some (lines.flatten.take written) })
      | some .close => (.returned false, { disk with csproj := some lines.flatten })
      | _ => (.returned true, { disk with csproj := some lines.flatten })

/-- The operation that fails at a migration. -/
def Fault.opAt (fault : Option Fault) (index : ℕ) : Option FileOp :=
  match fault with
  | some (.migration i op) => if i = index then some op else none
  | _ => none

/-- The loop of `DoGenerate`, behind `index` migrations. -/
def generateLoop (fault : Option Fault) (index : ℕ) : List Text → Disk → Outcome × Disk
  | [], disk => (.returned true, disk)
  | csMakeFile :: willBeMakeFileList, disk =>
    match createCSFile (Fault.opAt fault index) disk csMakeFile with
    | (false, disk) => (.returned false, disk)
    | (true, disk) =>
      match updateCSProjectFile (Fault.opAt fault index) disk csMakeFile with
      | (.returned true, disk) => generateLoop fault (index + 1) willBeMakeFileList disk
      | result => result

/-- `DoGenerate`. -/
def doGenerate (fault : Option Fault) (disk : Disk) : Outcome × Disk :=
  match disk.csproj with
  | none => (.returned false, disk)
  | some _ =>
    if fault = some .listdir then (.raised, disk)
    else generateLoop fault 0 (makeAppendFileList disk).2 disk

end DBMigrator

end DdingGameServer
