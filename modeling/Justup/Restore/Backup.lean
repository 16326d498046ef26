import Justup.Restore.Extract

/-!
# Every backup can be read back

`create_backup` puts snapshots of the data directories and the manifest into an archive.
The archive is well formed, and its extraction brings back what the snapshots hold.
-/

namespace Justup.Restore.Archive

open Justup.Store (Text)

variable {C M α : Type*}

/-! ## Directories and their snapshots -/

/-- A name that an entry of a directory can have. -/
def IsName (name : Text) : Prop :=
  name ≠ [] ∧ '/' ∉ name ∧ name ≠ ['.'] ∧ name ≠ ['.', '.']

/-- The entries of a directory, sorted by name. -/
structure Listing (α : Type*) where
  entries : List (Text × α)
  named : ∀ name ∈ entries.map Prod.fst, IsName name
  distinct : (entries.map Prod.fst).Nodup

inductive DirEntry (C : Type*) where
  | file (content : C)
  | directory

structure DataDirectory (C : Type*) where
  sqlite : Option (Listing (DirEntry C))
  /-- What `snapshot_tsdb` copies: the files of each target. -/
  tsdb : Option (Listing (Listing C))
  pdfReports : Option (Listing (DirEntry C))

/-- What the backup takes from elsewhere. -/
structure Tools (C : Type*) where
  size : C → Nat
  /-- The online backup of a database. -/
  backup : C → Option C
  /-- `serialize_backup_manifest` of the application database. -/
  serializeManifest : C → Except String C

/-- Copies the files that are kept, each in its own way. -/
def copyEntries (keep : Text → Bool) (copyFile : Text → C → Except String C) :
    List (Text × DirEntry C) → Except String (List (Text × C))
  | [] => .ok []
  | (_, .directory) :: rest => copyEntries keep copyFile rest
  | (name, .file content) :: rest =>
      if keep name then
        match copyFile name content with
        | .error message => .error message
        | .ok copy => (copyEntries keep copyFile rest).map ((name, copy) :: ·)
      else copyEntries keep copyFile rest

/-- What a copy of a directory holds. -/
structure Copied (keep : Text → Bool) (copyFile : Text → C → Except String C)
    (entries : List (Text × DirEntry C)) (copied : List (Text × C)) : Prop where
  names : (copied.map Prod.fst).Sublist (entries.map Prod.fst)
  files : ∀ name content, (name, content) ∈ copied ↔ keep name = true ∧
    ∃ original, (name, .file original) ∈ entries ∧ copyFile name original = .ok content

/-- An entry that is not copied is of no account. -/
theorem Copied.skip {keep : Text → Bool} {copyFile : Text → C → Except String C}
    {entries : List (Text × DirEntry C)} {copied : List (Text × C)} {name : Text}
    {entry : DirEntry C} (hcopied : Copied keep copyFile entries copied)
    (hskip : ∀ content, entry = .file content → keep name ≠ true) :
    Copied keep copyFile ((name, entry) :: entries) copied := by
  refine ⟨hcopied.names.cons _, fun other found => ?_⟩
  rw [hcopied.files]
  refine and_congr_right fun hkept => exists_congr fun original => ?_
  have hother : (other, DirEntry.file original) ≠ (name, entry) := fun hsame => by
    cases hsame
    exact hskip original rfl hkept
  rw [List.mem_cons, or_iff_right hother]

theorem Copied.copy {keep : Text → Bool} {copyFile : Text → C → Except String C}
    {entries : List (Text × DirEntry C)} {copied : List (Text × C)} {name : Text}
    {content copy : C} (hcopied : Copied keep copyFile entries copied) (hkeep : keep name = true)
    (hcopy : copyFile name content = .ok copy) :
    Copied keep copyFile ((name, .file content) :: entries) ((name, copy) :: copied) := by
  refine ⟨hcopied.names.cons_cons _, fun other found => ?_⟩
  rw [List.mem_cons, hcopied.files]
  constructor
  · rintro (hsame | ⟨hkept, original, horiginal, hfound⟩)
    · cases hsame
      exact ⟨hkeep, content, List.mem_cons_self, hcopy⟩
    · exact ⟨hkept, original, List.mem_cons_of_mem _ horiginal, hfound⟩
  · rintro ⟨hkept, original, horiginal, hfound⟩
    rcases List.mem_cons.mp horiginal with hsame | horiginal
    · cases hsame
      rw [hcopy] at hfound
      cases hfound
      exact .inl rfl
    · exact .inr ⟨hkept, original, horiginal, hfound⟩

theorem copied_of_copyEntries {keep : Text → Bool} {copyFile : Text → C → Except String C}
    {entries : List (Text × DirEntry C)} {copied : List (Text × C)}
    (hcopied : copyEntries keep copyFile entries = .ok copied) :
    Copied keep copyFile entries copied := by
  induction entries generalizing copied with
  | nil =>
      rw [copyEntries] at hcopied
      cases hcopied
      constructor <;> simp
  | cons entry rest ih =>
      rcases entry with ⟨name, content | _⟩
      · rw [copyEntries] at hcopied
        split_ifs at hcopied with hkeep
        · cases hcopy : copyFile name content with
          | error message =>
              rw [hcopy] at hcopied
              cases hcopied
          | ok copy =>
              rw [hcopy] at hcopied
              cases hrest : copyEntries keep copyFile rest with
              | error message =>
                  rw [hrest] at hcopied
                  cases hcopied
              | ok others =>
                  rw [hrest] at hcopied
                  cases hcopied
                  exact (ih hrest).copy hkeep hcopy
        · exact (ih hcopied).skip fun _ _ => hkeep
      · rw [copyEntries] at hcopied
        exact (ih hcopied).skip fun _ hfile => by cases hfile

def snapshotDir (keep : Text → Bool) (copyFile : Text → C → Except String C)
    (source : Listing (DirEntry C)) : Except String (Listing C) :=
  match h : copyEntries keep copyFile source.entries with
  | .error message => .error message
  | .ok copied =>
      .ok {
        entries := copied
        named := fun name hname =>
          source.named name ((copied_of_copyEntries h).names.subset hname)
        distinct := (copied_of_copyEntries h).names.nodup source.distinct }

theorem copied_of_snapshotDir {keep : Text → Bool} {copyFile : Text → C → Except String C}
    {source : Listing (DirEntry C)} {copied : Listing C}
    (hcopied : snapshotDir keep copyFile source = .ok copied) :
    Copied keep copyFile source.entries copied.entries := by
  unfold snapshotDir at hcopied
  split at hcopied
  · cases hcopied
  next entries hentries =>
    cases hcopied
    exact copied_of_copyEntries hentries

def isSideFile (name : Text) : Bool := sqliteSideSuffixes.any fun suffix => suffix.isSuffixOf name

/-- `entry.suffix == ".db"` -/
def isDatabase (name : Text) : Bool := ['.', 'd', 'b'].isSuffixOf name && decide (3 < name.length)

def Tools.copyFile (tools : Tools C) (name : Text) (content : C) : Except String C :=
  if isDatabase name then
    match tools.backup content with
    | none => .error ("Backup failed: could not snapshot database " ++ String.ofList name)
    | some copy => .ok copy
  else .ok content

def snapshotSqliteDir (tools : Tools C) : Listing (DirEntry C) → Except String (Listing C) :=
  snapshotDir (fun name => !isSideFile name) tools.copyFile

def isTemporary (name : Text) : Bool := ['.', 't', 'm', 'p'].isSuffixOf name

def snapshotPdfReports : Listing (DirEntry C) → Except String (Listing C) :=
  snapshotDir (fun name => !isTemporary name) fun _ => .ok

def tsdb : Text := ['t', 's', 'd', 'b']
def pdfReports : Text := ['p', 'd', 'f', '_', 'r', 'e', 'p', 'o', 'r', 't', 's']
def justupDb : Text := ['j', 'u', 's', 't', 'u', 'p', '.', 'd', 'b']
def manifestName : Text :=
  ['b', 'a', 'c', 'k', 'u', 'p', '-', 'm', 'a', 'n', 'i', 'f', 'e', 's', 't', '.', 'j', 's', 'o',
    'n']

/-- The copies that go into an archive. -/
structure Snapshot (C : Type*) where
  sqlite : Listing C
  tsdb : Option (Listing (Listing C))
  pdfReports : Option (Listing C)
  manifest : C
  selfContained : ∀ name ∈ sqlite.entries.map Prod.fst, isSideFile name = false
  hasDatabase : justupDb ∈ sqlite.entries.map Prod.fst

def copyReports : Option (Listing (DirEntry C)) → Except String (Option (Listing C))
  | none => .ok none
  | some reports => (snapshotPdfReports reports).map some

theorem selfContained_of_snapshot {tools : Tools C} {databases : Listing (DirEntry C)}
    {copies : Listing C} (hcopied : snapshotSqliteDir tools databases = .ok copies) :
    ∀ name ∈ copies.entries.map Prod.fst, isSideFile name = false := by
  intro name hname
  obtain ⟨⟨name, content⟩, hentry, rfl⟩ := List.mem_map.mp hname
  simpa using (((copied_of_snapshotDir hcopied).files name content).mp hentry).1

/-- The copies that `create_backup` takes. -/
def takeSnapshot (tools : Tools C) (source : DataDirectory C) : Except String (Snapshot C) :=
  match source.sqlite with
  | none => .error "Backup failed: application database directory is missing"
  | some databases =>
      match hsqlite : snapshotSqliteDir tools databases with
      | .error message => .error message
      | .ok sqlite =>
          match copyReports source.pdfReports with
          | .error message => .error message
          | .ok pdfReports =>
              match hfound : sqlite.entries.find? fun entry => entry.1 = justupDb with
              | none =>
                  .error "Backup failed: application database data/sqlite/justup.db is missing"
              | some (name, database) =>
                  match tools.serializeManifest database with
                  | .error message => .error message
                  | .ok manifest =>
                      .ok {
                        sqlite
                        tsdb := source.tsdb
                        pdfReports
                        manifest
                        selfContained := selfContained_of_snapshot hsqlite
                        hasDatabase := List.mem_map.mpr ⟨_, List.mem_of_find?_eq_some hfound, by
                          simpa using List.find?_some hfound⟩ }

/-- What the copies are copies of. -/
structure Taken (tools : Tools C) (source : DataDirectory C) (snapshot : Snapshot C) : Prop where
  sqlite : ∃ databases, source.sqlite = some databases ∧
    Copied (fun name => !isSideFile name) tools.copyFile databases.entries snapshot.sqlite.entries
  tsdb : snapshot.tsdb = source.tsdb
  pdfReports : copyReports source.pdfReports = .ok snapshot.pdfReports

theorem taken_of_takeSnapshot {tools : Tools C} {source : DataDirectory C} {snapshot : Snapshot C}
    (htaken : takeSnapshot tools source = .ok snapshot) : Taken tools source snapshot := by
  unfold takeSnapshot at htaken
  split at htaken
  · cases htaken
  next databases hdatabases =>
    split at htaken
    · cases htaken
    next sqlite hsqlite =>
      split at htaken
      · cases htaken
      next pdfReports hreports =>
        split at htaken
        · cases htaken
        next name database hfound =>
          split at htaken
          · cases htaken
          next manifest hmanifest =>
            cases htaken
            exact ⟨⟨databases, hdatabases, copied_of_snapshotDir hsqlite⟩, rfl, hreports⟩

/-- The report copies of a snapshot. -/
theorem reports_of_taken {tools : Tools C} {source : DataDirectory C} {snapshot : Snapshot C}
    (htaken : Taken tools source snapshot) (name : Text) (content : C) :
    (∃ copies, snapshot.pdfReports = some copies ∧ (name, content) ∈ copies.entries) ↔
      ∃ reports, source.pdfReports = some reports ∧ (name, .file content) ∈ reports.entries ∧
        isTemporary name = false := by
  have hreports := htaken.pdfReports
  cases hsource : source.pdfReports with
  | none =>
      rw [hsource, copyReports] at hreports
      simp [← Except.ok.inj hreports]
  | some reports =>
      rw [hsource, copyReports] at hreports
      cases hcopied : snapshotPdfReports reports with
      | error message =>
          rw [hcopied] at hreports
          cases hreports
      | ok copies =>
          rw [hcopied] at hreports
          have hfiles := (copied_of_snapshotDir hcopied).files name content
          simp only [← Except.ok.inj hreports, Option.some.injEq, exists_eq_left', hfiles]
          simp [and_comm]

/-! ## Names and paths -/

/-- The name of a path in the archive. -/
def arcname (path : Path) : Text := ['/'].intercalate path

structure Plain (path : Path) : Prop where
  ne_nil : path ≠ []
  names : ∀ part ∈ path, IsName part

theorem splitOn_arcname {path : Path} (hplain : Plain path) :
    (arcname path).splitOn '/' = path :=
  List.splitOn_intercalate '/' (fun part hpart => (hplain.names part hpart).2.1) hplain.ne_nil

theorem purePosixPath_arcname {path : Path} (hplain : Plain path) :
    purePosixPath (arcname path) = ⟨[], path⟩ := by
  have hhead : (arcname path).head? ≠ some '/' := by
    intro hslash
    obtain ⟨rest, hrest⟩ := List.head?_eq_some_iff.mp hslash
    have hsplit := splitOn_arcname hplain
    rw [hrest, ← List.nil_append ('/' :: rest), List.splitOn_append_cons_self] at hsplit
    refine (hplain.names [] ?_).1 rfl
    rw [← hsplit]
    simp
  have htwo : (arcname path).take 2 ≠ ['/', '/'] := by
    intro hslashes
    refine hhead ?_
    have hfirst : (arcname path).head? = ((arcname path).take 2).head? := by
      simp [List.head?_take]
    rw [hfirst, hslashes]
    rfl
  have hkept : path.filter (fun part => decide (part ≠ [] ∧ part ≠ ['.'])) = path :=
    List.filter_eq_self.mpr fun part hpart =>
      decide_eq_true ⟨(hplain.names part hpart).1, (hplain.names part hpart).2.2.1⟩
  rw [purePosixPath, splitOn_arcname hplain, hkept, if_neg fun h => htwo h.1, if_neg hhead]

theorem lastName_arcname {path : Path} (hplain : Plain path) : lastName (arcname path) ≠ ['.'] := by
  obtain ⟨front, last, hpath⟩ := (List.eq_nil_or_concat path).resolve_left hplain.ne_nil
  rw [List.concat_eq_append] at hpath
  have hlast := hplain.names last (hpath ▸ by simp)
  rw [lastName, splitOn_arcname hplain, hpath, List.reverse_append, List.reverse_singleton,
    List.singleton_append, List.dropWhile_cons_of_neg (by simpa using hlast.1)]
  exact hlast.2.2.1

theorem Plain.child {path : Path} {name : Text} (hplain : Plain path) (hname : IsName name) :
    Plain (path ++ [name]) where
  ne_nil := by simp
  names part hpart := by
    rcases List.mem_append.mp hpart with hpart | hpart
    · exact hplain.names part hpart
    · rw [List.mem_singleton.mp hpart]
      exact hname

theorem parts_of_name {member : Member C} {path : Path} (hplain : Plain path)
    (hname : member.name = arcname path) : member.parts = path := by
  rw [Member.parts, hname, purePosixPath_arcname hplain]
  rfl

def tarFile (size : C → Nat) (path : Path) (content : C) : Member C :=
  ⟨arcname path, .regular, size content, content⟩

def addFile (size : C → Nat) (path : Path) (content : C) : List (Member C) :=
  [tarFile size path content]

/-! ## Members that stand together -/

/-- Members that lie in one directory and can stand together. -/
structure Branch (path : Path) (members : List (Member C)) : Prop where
  below : ∀ member ∈ members, path <+: member.parts
  distinct : (members.map Member.parts).Nodup
  files : ∀ file ∈ members, file.kind = .regular → ∀ member ∈ members,
    ¬ IsParent file.parts member.parts

theorem branch_nil (path : Path) : Branch path ([] : List (Member C)) := by
  constructor <;> simp

theorem branch_addFile {path : Path} (hplain : Plain path) (size : C → Nat) (content : C) :
    Branch path (addFile size path content) := by
  have hparts : (tarFile size path content).parts = path := parts_of_name hplain rfl
  constructor <;> simp [addFile, hparts, IsParent]

theorem name_eq_of_below {path other : Path} {first second : Text}
    (hfirst : path ++ [first] <+: other) (hsecond : path ++ [second] <+: other) :
    first = second := by
  have hsame := (List.prefix_of_prefix_length_le hfirst hsecond (by simp)).eq_of_length (by simp)
  simpa using hsame

/-- What lies in different subdirectories can stand together. -/
theorem branch_flatMap {path : Path} {children : List (Text × α)}
    {members : Text × α → List (Member C)} (hdistinct : (children.map Prod.fst).Nodup)
    (hchildren : ∀ child ∈ children, Branch (path ++ [child.1]) (members child)) :
    Branch path (children.flatMap members) where
  below member hmember := by
    obtain ⟨child, hchild, hmember⟩ := List.mem_flatMap.mp hmember
    exact (List.prefix_append _ _).trans ((hchildren child hchild).below member hmember)
  distinct := by
    rw [List.map_flatMap, List.nodup_flatMap]
    refine ⟨fun child hchild => (hchildren child hchild).distinct, ?_⟩
    refine (List.pairwise_map.mp hdistinct).imp_of_mem fun {first second} hfirst hsecond hne => ?_
    intro other hother hsame
    obtain ⟨member, hmember, rfl⟩ := List.mem_map.mp hother
    obtain ⟨twin, htwin, hparts⟩ := List.mem_map.mp hsame
    refine hne (name_eq_of_below ((hchildren first hfirst).below member hmember) ?_)
    rw [← hparts]
    exact (hchildren second hsecond).below twin htwin
  files file hfile hregular member hmember hparent := by
    obtain ⟨first, hfirst, hfile⟩ := List.mem_flatMap.mp hfile
    obtain ⟨second, hsecond, hmember⟩ := List.mem_flatMap.mp hmember
    have hname : first.1 = second.1 := name_eq_of_below
      (((hchildren first hfirst).below file hfile).trans hparent.1)
      ((hchildren second hsecond).below member hmember)
    have hsame : first = second := List.inj_on_of_nodup_map hdistinct hfirst hsecond hname
    exact (hchildren first hfirst).files file hfile hregular member (hsame ▸ hmember) hparent

theorem branch_option {path : Path} {source : Option α} {members : α → List (Member C)}
    (hsource : ∀ content, source = some content → Branch path (members content)) :
    Branch path (source.toList.flatMap members) := by
  cases source with
  | none => exact branch_nil path
  | some content => simpa using hsource content rfl

theorem plain_backup {dir : Text} (hdir : dir ∈ manifestName :: backupDirectoryNames) :
    Plain [data, dir] := by
  have hnames : ∀ part ∈ data :: manifestName :: backupDirectoryNames, IsName part := by
    unfold IsName
    decide
  refine ⟨by simp, fun part hpart => hnames part ?_⟩
  rcases List.mem_cons.mp hpart with rfl | hpart
  · exact List.mem_cons_self
  · rw [List.mem_singleton.mp hpart]
    exact List.mem_cons_of_mem _ hdir

theorem Listing.isName {source : Listing α} {name : Text} {content : α}
    (hentry : (name, content) ∈ source.entries) : IsName name :=
  source.named name (List.mem_map_of_mem hentry)

/-- The tests on a member below one of the directories of a backup. -/
theorem sound_of_path {member : Member C} {dir : Text} {rest : Path}
    (hdir : dir ∈ backupDirectoryNames) (hplain : Plain (data :: dir :: rest))
    (hname : member.name = arcname (data :: dir :: rest)) (hkind : member.kind ≠ .special)
    (hplace : rest = [] → member.kind ≠ .regular)
    (hside : dir = sqlite → rest ≠ [] →
      member.kind = .regular ∧ ∃ name, rest = [name] ∧ isSideFile name = false) :
    Sound member := by
  have hparts : member.parts = data :: dir :: rest := parts_of_name hplain hname
  have hmanifest : data :: dir :: rest ≠ manifestPath := by
    have hother : ∀ dir ∈ backupDirectoryNames, dir ≠ manifestName := by decide
    intro hsame
    exact hother dir hdir (List.cons.inj (List.cons.inj hsame).2).1
  constructor
  · exact hkind
  · rw [hname, purePosixPath_arcname hplain]
    rfl
  · rw [hparts]
    exact fun hclimb => (hplain.names _ hclimb).2.2.2 rfl
  · rw [hparts]
    rfl
  · rw [hparts]
    exact fun hsame => absurd hsame hmanifest
  · rw [hparts]
    exact fun _ => ⟨fun _ => hdir, fun hshort => hplace (by simpa using hshort)⟩
  · rw [hparts]
    intro hlong hsqlite suffix hsuffix hends
    obtain ⟨-, name, rfl, hnone⟩ := hside hsqlite (by rintro rfl; simp at hlong)
    have hany : isSideFile name = true := List.any_eq_true.mpr
      ⟨suffix, hsuffix, List.isSuffixOf_iff_suffix.mpr hends⟩
    rw [hnone] at hany
    cases hany
  · rw [hparts]
    intro hsame
    have hrest := (List.cons.inj (List.cons.inj hsame).2).2
    exact (hside (List.cons.inj (List.cons.inj hsame).2).1 (by rw [hrest]; simp)).1

/-! ## The archive -/

section Members

variable [Inhabited C]

def tarDirectory (path : Path) : Member C := ⟨arcname path, .directory, 0, default⟩

/-- The files of a directory at its path, by `tar.add`. -/
def tarAdd (add : Path → α → List (Member C)) (path : Path) (source : Listing α) :
    List (Member C) :=
  tarDirectory path :: source.entries.flatMap fun entry => add (path ++ [entry.1]) entry.2

theorem branch_tarAdd {path : Path} {add : Path → α → List (Member C)} {source : Listing α}
    (hplain : Plain path)
    (hadd : ∀ entry ∈ source.entries,
      Branch (path ++ [entry.1]) (add (path ++ [entry.1]) entry.2)) :
    Branch path (tarAdd add path source) := by
  have hparts : (tarDirectory path : Member C).parts = path := parts_of_name hplain rfl
  have hbranch := branch_flatMap source.distinct hadd
  have hlonger : ∀ member ∈ source.entries.flatMap fun entry => add (path ++ [entry.1]) entry.2,
      ¬ member.parts <+: path := by
    intro member hmember hunder
    obtain ⟨entry, hentry, hmember⟩ := List.mem_flatMap.mp hmember
    have hlength := (((hadd entry hentry).below member hmember).trans hunder).length_le
    simp at hlength
  refine ⟨?_, ?_, ?_⟩
  · intro member hmember
    rcases List.mem_cons.mp hmember with rfl | hmember
    · rw [hparts]
    · exact hbranch.below member hmember
  · rw [tarAdd, List.map_cons, List.nodup_cons, hparts]
    refine ⟨fun hpath => ?_, hbranch.distinct⟩
    obtain ⟨member, hmember, hsame⟩ := List.mem_map.mp hpath
    exact hlonger member hmember (hsame ▸ List.prefix_rfl)
  · intro file hfile hregular member hmember hparent
    rcases List.mem_cons.mp hfile with rfl | hfile
    · cases hregular
    · rcases List.mem_cons.mp hmember with rfl | hmember
      · exact hlonger file hfile (hparts ▸ hparent.1)
      · exact hbranch.files file hfile hregular member hmember hparent

def archiveOf (size : C → Nat) (snapshot : Snapshot C) : List (Member C) :=
  tarAdd (addFile size) [data, sqlite] snapshot.sqlite ++
    (snapshot.tsdb.toList.flatMap (tarAdd (tarAdd (addFile size)) [data, tsdb]) ++
      (snapshot.pdfReports.toList.flatMap (tarAdd (addFile size) [data, pdfReports]) ++
        addFile size manifestPath snapshot.manifest))

/-- `create_backup` up to the signature. -/
def createBackup (tools : Tools C) (source : DataDirectory C) :
    Except String (List (Member C)) :=
  (takeSnapshot tools source).map (archiveOf tools.size)

/-! ## The archive is well formed -/

/-- What stands in the archive of a snapshot. -/
inductive Archived (size : C → Nat) (snapshot : Snapshot C) : Member C → Prop where
  | sqliteDirectory : Archived size snapshot (tarDirectory [data, sqlite])
  | sqliteFile {name : Text} {content : C} (hfile : (name, content) ∈ snapshot.sqlite.entries) :
      Archived size snapshot (tarFile size [data, sqlite, name] content)
  | tsdbDirectory {targets : Listing (Listing C)} (htsdb : snapshot.tsdb = some targets) :
      Archived size snapshot (tarDirectory [data, tsdb])
  | targetDirectory {targets : Listing (Listing C)} {target : Text} {files : Listing C}
      (htsdb : snapshot.tsdb = some targets) (htarget : (target, files) ∈ targets.entries) :
      Archived size snapshot (tarDirectory [data, tsdb, target])
  | seriesFile {targets : Listing (Listing C)} {target name : Text} {files : Listing C}
      {content : C} (htsdb : snapshot.tsdb = some targets)
      (htarget : (target, files) ∈ targets.entries)
      (hfile : (name, content) ∈ files.entries) :
      Archived size snapshot (tarFile size [data, tsdb, target, name] content)
  | reportsDirectory {reports : Listing C} (hreports : snapshot.pdfReports = some reports) :
      Archived size snapshot (tarDirectory [data, pdfReports])
  | report {reports : Listing C} {name : Text} {content : C}
      (hreports : snapshot.pdfReports = some reports) (hfile : (name, content) ∈ reports.entries) :
      Archived size snapshot (tarFile size [data, pdfReports, name] content)
  | manifest : Archived size snapshot (tarFile size manifestPath snapshot.manifest)

theorem mem_archiveOf {size : C → Nat} {snapshot : Snapshot C} {member : Member C} :
    member ∈ archiveOf size snapshot ↔ Archived size snapshot member := by
  simp only [archiveOf, tarAdd, addFile, List.mem_append, List.mem_cons, List.mem_flatMap,
    Option.mem_toList, List.not_mem_nil, or_false, Prod.exists]
  simp only [List.cons_append, List.nil_append]
  constructor
  · rintro ((rfl | ⟨name, content, hfile, rfl⟩) |
      ⟨targets, htsdb, rfl | ⟨target, files, htarget, rfl | ⟨name, content, hfile, rfl⟩⟩⟩ |
      ⟨reports, hreports, rfl | ⟨name, content, hfile, rfl⟩⟩ | rfl)
    · exact .sqliteDirectory
    · exact .sqliteFile hfile
    · exact .tsdbDirectory htsdb
    · exact .targetDirectory htsdb htarget
    · exact .seriesFile htsdb htarget hfile
    · exact .reportsDirectory hreports
    · exact .report hreports hfile
    · exact .manifest
  · intro harchived
    cases harchived with
    | sqliteDirectory => exact .inl (.inl rfl)
    | sqliteFile hfile => exact .inl (.inr ⟨_, _, hfile, rfl⟩)
    | tsdbDirectory htsdb => exact .inr (.inl ⟨_, htsdb, .inl rfl⟩)
    | targetDirectory htsdb htarget => exact .inr (.inl ⟨_, htsdb, .inr ⟨_, _, htarget, .inl rfl⟩⟩)
    | seriesFile htsdb htarget hfile =>
        exact .inr (.inl ⟨_, htsdb, .inr ⟨_, _, htarget, .inr ⟨_, _, hfile, rfl⟩⟩⟩)
    | reportsDirectory hreports => exact .inr (.inr (.inl ⟨_, hreports, .inl rfl⟩))
    | report hreports hfile => exact .inr (.inr (.inl ⟨_, hreports, .inr ⟨_, _, hfile, rfl⟩⟩))
    | manifest => exact .inr (.inr (.inr rfl))

omit [Inhabited C] in
theorem sound_tarManifest {size : C → Nat} {content : C} (hsize : size content ≤ maxManifestBytes) :
    Sound (tarFile size manifestPath content) := by
  have hpath : Plain manifestPath := plain_backup (by decide)
  have hparts : (tarFile size manifestPath content).parts = manifestPath :=
    parts_of_name hpath rfl
  constructor
  · simp [tarFile]
  · rw [tarFile, purePosixPath_arcname hpath]
    rfl
  · rw [hparts]
    decide
  · rw [hparts]
    rfl
  · exact fun _ => ⟨rfl, hsize⟩
  · exact fun hne => absurd hparts hne
  · rw [hparts]
    decide
  · exact fun _ => rfl

theorem sound_archived {size : C → Nat} {snapshot : Snapshot C} {member : Member C}
    (hmanifest : size snapshot.manifest ≤ maxManifestBytes)
    (harchived : Archived size snapshot member) : Sound member := by
  have hsqlite : sqlite ∈ backupDirectoryNames := by decide
  have htsdbName : tsdb ∈ backupDirectoryNames := by decide
  have hreportsName : pdfReports ∈ backupDirectoryNames := by decide
  have hplain : ∀ dir ∈ backupDirectoryNames, Plain [data, dir] := fun dir hdir =>
    plain_backup (List.mem_cons_of_mem _ hdir)
  have hother : tsdb ≠ sqlite ∧ pdfReports ≠ sqlite := by decide
  cases harchived with
  | sqliteDirectory =>
      exact sound_of_path hsqlite (hplain _ hsqlite) rfl (by simp [tarDirectory])
        (by simp [tarDirectory]) fun _ hnil => absurd rfl hnil
  | @sqliteFile name content hfile =>
      refine sound_of_path hsqlite ((hplain _ hsqlite).child (Listing.isName hfile)) rfl
        (by simp [tarFile]) (by simp) fun _ _ => ⟨rfl, name, rfl, ?_⟩
      exact snapshot.selfContained name (List.mem_map_of_mem hfile)
  | tsdbDirectory htsdb =>
      exact sound_of_path htsdbName (hplain _ htsdbName) rfl (by simp [tarDirectory])
        (by simp [tarDirectory]) fun hsame => absurd hsame hother.1
  | targetDirectory htsdb htarget =>
      exact sound_of_path htsdbName ((hplain _ htsdbName).child (Listing.isName htarget)) rfl
        (by simp [tarDirectory]) (by simp) fun hsame => absurd hsame hother.1
  | seriesFile htsdb htarget hfile =>
      exact sound_of_path htsdbName
        (((hplain _ htsdbName).child (Listing.isName htarget)).child (Listing.isName hfile)) rfl
        (by simp [tarFile]) (by simp) fun hsame => absurd hsame hother.1
  | reportsDirectory hreports =>
      exact sound_of_path hreportsName (hplain _ hreportsName) rfl (by simp [tarDirectory])
        (by simp [tarDirectory]) fun hsame => absurd hsame hother.2
  | report hreports hfile =>
      exact sound_of_path hreportsName ((hplain _ hreportsName).child (Listing.isName hfile)) rfl
        (by simp [tarFile]) (by simp) fun hsame => absurd hsame hother.2
  | manifest => exact sound_tarManifest hmanifest

theorem branch_archiveOf (size : C → Nat) (snapshot : Snapshot C) :
    Branch [data] (archiveOf size snapshot) := by
  have hplain : ∀ dir ∈ manifestName :: backupDirectoryNames, Plain [data, dir] := fun _ =>
    plain_backup
  have hflat : ∀ {dir : Text} (_ : dir ∈ manifestName :: backupDirectoryNames)
      (files : Listing C), Branch [data, dir] (tarAdd (addFile size) [data, dir] files) :=
    fun hdir files => branch_tarAdd (hplain _ hdir) fun entry hentry =>
      branch_addFile ((hplain _ hdir).child (Listing.isName hentry)) size entry.2
  have htargets : ∀ targets : Listing (Listing C),
      Branch [data, tsdb] (tarAdd (tarAdd (addFile size)) [data, tsdb] targets) := by
    intro targets
    refine branch_tarAdd (hplain _ (by decide)) fun target htarget => ?_
    have htargetPlain := (hplain tsdb (by decide)).child (Listing.isName htarget)
    exact branch_tarAdd htargetPlain fun entry hentry =>
      branch_addFile (htargetPlain.child (Listing.isName hentry)) size entry.2
  have hnames : [sqlite, tsdb, pdfReports, manifestName].Nodup := by decide
  -- the archive is one branch for each name below `data`
  have hbranches := @branch_flatMap C (List (Member C)) [data]
    [(sqlite, tarAdd (addFile size) [data, sqlite] snapshot.sqlite),
      (tsdb, snapshot.tsdb.toList.flatMap (tarAdd (tarAdd (addFile size)) [data, tsdb])),
      (pdfReports, snapshot.pdfReports.toList.flatMap (tarAdd (addFile size) [data, pdfReports])),
      (manifestName, addFile size manifestPath snapshot.manifest)]
    Prod.snd hnames ?_
  · simpa [archiveOf] using hbranches
  · simp only [List.forall_mem_cons]
    refine ⟨hflat (by decide) snapshot.sqlite, ?_, ?_, ?_, by simp⟩
    · exact branch_option fun targets _ => htargets targets
    · exact branch_option fun reports _ => hflat (by decide) reports
    · exact branch_addFile (hplain manifestName (by decide)) size snapshot.manifest

theorem wellFormed_archiveOf {limits : Limits} {size : C → Nat} {snapshot : Snapshot C}
    (hcount : (archiveOf size snapshot).length ≤ limits.maxMembers)
    (hsize : ((archiveOf size snapshot).map Member.size).sum ≤ limits.maxBytes)
    (hmanifest : size snapshot.manifest ≤ maxManifestBytes) :
    WellFormed limits (archiveOf size snapshot) where
  count := hcount
  size := hsize
  sound _ hmember := sound_archived hmanifest (mem_archiveOf.mp hmember)
  distinct := (branch_archiveOf size snapshot).distinct
  files := (branch_archiveOf size snapshot).files
  hasManifest := List.mem_map.mpr ⟨_, mem_archiveOf.mpr .manifest,
    parts_of_name (plain_backup (by decide)) rfl⟩
  hasDatabase := by
    obtain ⟨⟨name, content⟩, hfile, hname⟩ := List.mem_map.mp snapshot.hasDatabase
    cases hname
    exact List.mem_map.mpr ⟨_, mem_archiveOf.mpr (.sqliteFile hfile),
      parts_of_name ((plain_backup (by decide)).child (Listing.isName hfile)) rfl⟩

/-! ## What comes back -/

theorem name_archived {size : C → Nat} {snapshot : Snapshot C} {member : Member C}
    (harchived : Archived size snapshot member) :
    ∃ path, Plain path ∧ member.name = arcname path := by
  have hplain : ∀ dir ∈ manifestName :: backupDirectoryNames, Plain [data, dir] := fun _ =>
    plain_backup
  cases harchived with
  | sqliteDirectory => exact ⟨_, hplain _ (by decide), rfl⟩
  | sqliteFile hfile => exact ⟨_, (hplain _ (by decide)).child (Listing.isName hfile), rfl⟩
  | tsdbDirectory _ => exact ⟨_, hplain _ (by decide), rfl⟩
  | targetDirectory _ htarget =>
      exact ⟨_, (hplain _ (by decide)).child (Listing.isName htarget), rfl⟩
  | seriesFile _ htarget hfile =>
      exact ⟨_, ((hplain _ (by decide)).child (Listing.isName htarget)).child
        (Listing.isName hfile), rfl⟩
  | reportsDirectory _ => exact ⟨_, hplain _ (by decide), rfl⟩
  | report _ hfile => exact ⟨_, (hplain _ (by decide)).child (Listing.isName hfile), rfl⟩
  | manifest => exact ⟨_, hplain _ (by decide), rfl⟩

/-- What a backup holds of a data directory. -/
inductive Held (tools : Tools C) (source : DataDirectory C) : Path → C → Prop where
  | database {databases : Listing (DirEntry C)} {name : Text} {original copy : C}
      (hsqlite : source.sqlite = some databases)
      (hfile : (name, .file original) ∈ databases.entries) (hside : isSideFile name = false)
      (hcopy : tools.copyFile name original = .ok copy) :
      Held tools source [data, sqlite, name] copy
  | series {targets : Listing (Listing C)} {target name : Text} {files : Listing C} {content : C}
      (htsdb : source.tsdb = some targets) (htarget : (target, files) ∈ targets.entries)
      (hfile : (name, content) ∈ files.entries) :
      Held tools source [data, tsdb, target, name] content
  | report {reports : Listing (DirEntry C)} {name : Text} {content : C}
      (hreports : source.pdfReports = some reports)
      (hfile : (name, .file content) ∈ reports.entries) (hkept : isTemporary name = false) :
      Held tools source [data, pdfReports, name] content

theorem held_of_archived {tools : Tools C} {source : DataDirectory C} {snapshot : Snapshot C}
    (htaken : Taken tools source snapshot) {member : Member C}
    (harchived : Archived tools.size snapshot member) (hregular : member.kind = .regular)
    (hmanifest : member.parts ≠ manifestPath) : Held tools source member.parts member.content := by
  have hpath : ∀ other, Plain other → member.name = arcname other → member.parts = other :=
    fun other => parts_of_name
  have hchild : ∀ {dir name : Text}, dir ∈ manifestName :: backupDirectoryNames → IsName name →
      Plain [data, dir, name] := fun hdir hname => (plain_backup hdir).child hname
  cases harchived with
  | sqliteDirectory => cases hregular
  | @sqliteFile name content hfile =>
      obtain ⟨databases, hsqlite, hcopied⟩ := htaken.sqlite
      obtain ⟨hkept, original, horiginal, hcopy⟩ := (hcopied.files name content).mp hfile
      rw [hpath _ (hchild (by decide) (Listing.isName hfile)) rfl]
      exact .database hsqlite horiginal (by simpa using hkept) hcopy
  | tsdbDirectory _ => cases hregular
  | targetDirectory _ _ => cases hregular
  | seriesFile htsdb htarget hfile =>
      rw [hpath _ ((hchild (by decide) (Listing.isName htarget)).child (Listing.isName hfile)) rfl]
      exact .series (htaken.tsdb ▸ htsdb) htarget hfile
  | reportsDirectory _ => cases hregular
  | @report reports name content hreports hfile =>
      obtain ⟨originals, horiginals, horiginal, hkept⟩ :=
        (reports_of_taken htaken name content).mp ⟨reports, hreports, hfile⟩
      rw [hpath _ (hchild (by decide) (Listing.isName hfile)) rfl]
      exact .report horiginals horiginal hkept
  | manifest => exact absurd (hpath _ (plain_backup (by decide)) rfl) hmanifest

theorem archived_of_held {tools : Tools C} {source : DataDirectory C} {snapshot : Snapshot C}
    (htaken : Taken tools source snapshot) {path : Path} {content : C}
    (hheld : Held tools source path content) :
    Archived tools.size snapshot (tarFile tools.size path content) ∧ Plain path := by
  cases hheld with
  | @database databases name original copy hsqlite hfile hside hcopy =>
      obtain ⟨sources, hsources, hcopied⟩ := htaken.sqlite
      cases hsqlite.symm.trans hsources
      have hcopy : (name, content) ∈ snapshot.sqlite.entries :=
        (hcopied.files name content).mpr ⟨by simpa using hside, original, hfile, hcopy⟩
      exact ⟨.sqliteFile hcopy, (plain_backup (by decide)).child (Listing.isName hcopy)⟩
  | series htsdb htarget hfile =>
      refine ⟨.seriesFile (htaken.tsdb.trans htsdb) htarget hfile, ?_⟩
      exact ((plain_backup (by decide)).child (Listing.isName htarget)).child (Listing.isName hfile)
  | @report reports name content hreports hfile hkept =>
      obtain ⟨copies, hcopies, hcopy⟩ :=
        (reports_of_taken htaken name content).mpr ⟨reports, hreports, hfile, hkept⟩
      exact ⟨.report hcopies hcopy, (plain_backup (by decide)).child (Listing.isName hcopy)⟩

/-- Every backup that fits the limits can be extracted, and brings back the copies of all files
that `create_backup` keeps and nothing else. -/
theorem backups_can_be_read_back [DecidableEq M] {tools : Tools C} {source : DataDirectory C}
    {members : List (Member C)} (hbackup : createBackup tools source = .ok members)
    {limits : Limits} (hcount : members.length ≤ limits.maxMembers)
    (hsize : (members.map Member.size).sum ≤ limits.maxBytes)
    {validateManifest : C → Except String M} {manifest : M}
    (hmanifest : ∀ member ∈ members, member.parts = manifestPath →
      member.size ≤ maxManifestBytes ∧ validateManifest member.content = .ok manifest) :
    (extractStream limits validateManifest manifest members).2 = .ok () ∧
      ∀ path content, path ≠ manifestPath →
        ((extractStream limits validateManifest manifest members).1 path = some (.file content) ↔
          Held tools source path content) := by
  unfold createBackup at hbackup
  cases hsnapshot : takeSnapshot tools source with
  | error message =>
      rw [hsnapshot] at hbackup
      cases hbackup
  | ok snapshot =>
      rw [hsnapshot] at hbackup
      cases hbackup
      have htaken := taken_of_takeSnapshot hsnapshot
      have hentry : tarFile tools.size manifestPath snapshot.manifest ∈
          archiveOf tools.size snapshot := mem_archiveOf.mpr .manifest
      have hwell := wellFormed_archiveOf hcount hsize
        (hmanifest _ hentry (parts_of_name (plain_backup (by decide)) rfl)).1
      have hextraction := extraction_extractStream limits validateManifest manifest
        (archiveOf tools.size snapshot)
      have hpassed : (extractStream limits validateManifest manifest
          (archiveOf tools.size snapshot)).2 = .ok () := by
        refine hextraction.passes.mpr ⟨hwell, fun member hmember => ⟨fun _ => ?_, fun hpath =>
          (hmanifest member hmember hpath).2⟩⟩
        obtain ⟨path, hplain, hname⟩ := name_archived (mem_archiveOf.mp hmember)
        exact decide_eq_false (hname ▸ lastName_arcname hplain)
      refine ⟨hpassed, fun path content hpath => ?_⟩
      rw [hextraction.complete hpassed, List.nil_append, treeOf_eq_file_iff hwell.distinct]
      constructor
      · rintro ⟨member, hmember, hregular, rfl, rfl⟩
        exact held_of_archived htaken (mem_archiveOf.mp hmember) hregular hpath
      · intro hheld
        obtain ⟨harchived, hplain⟩ := archived_of_held htaken hheld
        exact ⟨_, mem_archiveOf.mpr harchived, rfl, parts_of_name hplain rfl, rfl⟩

end Members

inductive SampleFile where
  | database
  | writeAheadLog
  | manifest
  deriving DecidableEq, Inhabited

/-- One database with its log next to it. -/
def sampleTools : Tools SampleFile where
  size
    | .database => 643072
    | .writeAheadLog => 32992
    | .manifest => 11264
  backup content := some content
  serializeManifest _ := .ok .manifest

def walName : Text := justupDb ++ ['-', 'w', 'a', 'l']

def sampleDirectory : DataDirectory SampleFile where
  sqlite := some {
    entries := [(justupDb, .file .database), (walName, .file .writeAheadLog)]
    named := by
      unfold IsName
      decide
    distinct := by decide }
  tsdb := none
  pdfReports := none

def sampleMembers : List (Member SampleFile) :=
  [tarDirectory [data, sqlite], tarFile sampleTools.size [data, sqlite, justupDb] .database,
    tarFile sampleTools.size manifestPath .manifest]

def readSample : SampleFile → Except String Unit
  | .manifest => .ok ()
  | _ => .error "Backup corrupt! Cannot be imported. (Manifest is invalid JSON)"

theorem backups_can_be_read_back_sample :
    (extractStream {} readSample () sampleMembers).2 = .ok () ∧
      ∀ path content, path ≠ manifestPath →
        ((extractStream {} readSample () sampleMembers).1 path = some (.file content) ↔
          Held sampleTools sampleDirectory path content) :=
  backups_can_be_read_back (by rfl) (by decide) (by decide) (by decide)

end Justup.Restore.Archive
