import Justup.Restore.Gates
import Justup.Store.Line

/-!
# What a backup archive may hold

`_ArchiveValidator` looks at one member after the other.  Whatever their order, it accepts
the archives that are well formed, and `_extract_stream` writes what they hold.
-/

namespace Justup.Restore.Archive

open Justup.Store (Text)

/-! ## Paths -/

/-- The parts of a path. -/
abbrev Path := List Text

/-- `PurePosixPath`; two slashes at the start, and not three, are a root of their own. -/
structure PosixPath where
  root : Text
  tail : Path

def purePosixPath (name : Text) : PosixPath where
  root :=
    if name.take 2 = ['/', '/'] ∧ name.take 3 ≠ ['/', '/', '/'] then ['/', '/']
    else if name.head? = some '/' then ['/']
    else []
  tail := (name.splitOn '/').filter fun part => part ≠ [] ∧ part ≠ ['.']

def PosixPath.isAbsolute (path : PosixPath) : Bool := path.root ≠ []

def PosixPath.parts (path : PosixPath) : Path :=
  if path.root = [] then path.tail else path.root :: path.tail

/-- The parents of a path that is not empty. -/
def parents (path : Path) : List Path := path.dropLast.inits

theorem mem_parents {path parent : Path} (hpath : path ≠ []) :
    parent ∈ parents path ↔ parent <+: path ∧ parent ≠ path := by
  obtain ⟨front, last, rfl⟩ := (List.eq_nil_or_concat path).resolve_left hpath
  rw [parents, List.mem_inits, List.concat_eq_append, List.dropLast_concat,
    List.prefix_concat_iff]
  constructor
  · intro hfront
    refine ⟨.inr hfront, fun hsame => ?_⟩
    have hlength := hfront.length_le
    rw [hsame, List.length_append] at hlength
    simp at hlength
  · rintro ⟨hsame | hfront, hne⟩
    · exact absurd hsame hne
    · exact hfront

def data : Text := ['d', 'a', 't', 'a']
def sqlite : Text := ['s', 'q', 'l', 'i', 't', 'e']

def backupDirectoryNames : List Text := backupDirectories.map String.toList

/-- `MANIFEST_PATH` -/
def manifestPath : Path :=
  [data, ['b', 'a', 'c', 'k', 'u', 'p', '-', 'm', 'a', 'n', 'i', 'f', 'e', 's', 't', '.', 'j', 's',
    'o', 'n']]

/-- `_APP_DB_ARCHIVE_PATH` -/
def appDbArchivePath : Path := [data, sqlite, ['j', 'u', 's', 't', 'u', 'p', '.', 'd', 'b']]

/-- `SQLITE_SIDE_SUFFIXES` -/
def sqliteSideSuffixes : List Text :=
  [['-', 'w', 'a', 'l'], ['-', 's', 'h', 'm'], ['-', 'j', 'o', 'u', 'r', 'n', 'a', 'l']]

def maxManifestBytes : Nat := 64 * 1024

/-! ## Members -/

inductive MemberKind where
  | regular
  | directory
  | special
  deriving DecidableEq

/-- A member of the archive with what it holds. -/
structure Member (C : Type*) where
  name : Text
  kind : MemberKind
  size : Nat
  content : C

inductive Refusal where
  | tooManyEntries
  | linksOrSpecialFiles
  | unsafePath
  | duplicatePath
  | invalidManifestEntry
  | manifestTooLarge
  | unexpectedContent
  | invalidStructure
  | sqliteSideFile
  | invalidDatabaseEntry
  | fileAsDirectory
  | unpackedTooLarge
  | missingManifest
  | missingDatabase
  | manifestChanged
  | extractionFailed
  /-- The text of a `BackupError` of the manifest's own. -/
  | manifestRefused (message : String)
  deriving DecidableEq

/-- The reason in the text of the `BackupError`. -/
def Refusal.reason : Refusal → String
  | tooManyEntries => "Too many archive entries"
  | linksOrSpecialFiles => "Links or special files are not allowed"
  | unsafePath => "Unsafe path in archive"
  | duplicatePath => "Duplicate archive path"
  | invalidManifestEntry => "Invalid manifest entry"
  | manifestTooLarge => "Manifest exceeds the size limit"
  | unexpectedContent => "Unexpected content in archive"
  | invalidStructure => "Invalid archive structure"
  | sqliteSideFile => "SQLite side files are not allowed"
  | invalidDatabaseEntry => "Invalid application database entry"
  | fileAsDirectory => "A file is also used as a directory"
  | unpackedTooLarge => "Unpacked size exceeds the limit"
  | missingManifest => "Missing backup manifest"
  | missingDatabase => "Missing data/sqlite/justup.db"
  | manifestChanged => "Manifest changed during extraction"
  | extractionFailed => "Extraction failed"
  | manifestRefused message => message

def Refusal.message : Refusal → String
  | .manifestRefused message => message
  | refusal => "Backup corrupt! Cannot be imported. (" ++ refusal.reason ++ ")"

section Members

variable {C : Type*}

def Member.parts (member : Member C) : Path := (purePosixPath member.name).parts

def Member.isreg (member : Member C) : Bool := member.kind = .regular

structure Limits where
  maxMembers : Nat := 500000
  maxBytes : Nat := 40 * 1024 * 1024 * 1024

/-- `_ArchiveValidator` -/
structure Validator where
  count : Nat := 0
  total : Nat := 0
  seen : List Path := []
  regularFiles : List Path := []
  parents : List Path := []
  manifestFound : Bool := false
  databaseFound : Bool := false

namespace Validator

/-- The tests of `check` in their order; a test that holds refuses the archive. -/
def tests (limits : Limits) (v : Validator) (member : Member C) : List (Bool × Refusal) :=
  let parts := member.parts
  let isManifest := decide (parts = manifestPath)
  [(decide (limits.maxMembers < v.count + 1), .tooManyEntries),
    (decide (member.kind = .special), .linksOrSpecialFiles),
    ((purePosixPath member.name).isAbsolute || parts.elem ['.', '.'] || parts.isEmpty ||
        parts.head? ≠ some data,
      .unsafePath),
    (v.seen.elem parts, .duplicatePath),
    (isManifest && !member.isreg, .invalidManifestEntry),
    (isManifest && decide (maxManifestBytes < member.size), .manifestTooLarge),
    (!isManifest && decide (1 < parts.length) && !backupDirectoryNames.elem (parts.getD 1 []),
      .unexpectedContent),
    (!isManifest && decide (parts.length ≤ 2) && member.isreg, .invalidStructure),
    (decide (2 < parts.length) && parts.getD 1 [] = sqlite &&
        sqliteSideSuffixes.any fun suffix => suffix.isSuffixOf (parts.getLastD []),
      .sqliteSideFile),
    (decide (parts = appDbArchivePath) && !member.isreg, .invalidDatabaseEntry),
    ((Archive.parents parts).any v.regularFiles.elem || member.isreg && v.parents.elem parts,
      .fileAsDirectory),
    (decide (limits.maxBytes < v.total + member.size), .unpackedTooLarge)]

/-- What `check` notes of a member that passes. -/
def note (v : Validator) (member : Member C) : Validator where
  count := v.count + 1
  total := v.total + member.size
  seen := v.seen ++ [member.parts]
  regularFiles := v.regularFiles ++ if member.isreg then [member.parts] else []
  parents := v.parents ++ Archive.parents member.parts
  manifestFound := v.manifestFound || decide (member.parts = manifestPath)
  databaseFound := v.databaseFound || decide (member.parts = appDbArchivePath)

/-- `check`: the normalized path, and the validator for the next member. -/
def check (limits : Limits) (v : Validator) (member : Member C) :
    Except Refusal (Path × Validator) :=
  match (tests limits v member).find? Prod.fst with
  | some (_, refusal) => .error refusal
  | none => .ok (member.parts, v.note member)

def finish (v : Validator) : Except Refusal Unit :=
  if !v.manifestFound then .error .missingManifest
  else if !v.databaseFound then .error .missingDatabase
  else .ok ()

end Validator

/-- `validate_members` -/
def validateMembers (limits : Limits) (members : List (Member C)) : Except Refusal Unit :=
  (members.foldlM (fun v member => (Validator.check limits v member).map Prod.snd) {}).bind
    Validator.finish

/-! ## Well-formed archives -/

/-- A member that may stand in a backup, whatever else does. -/
structure Sound (member : Member C) : Prop where
  plain : member.kind ≠ .special
  relative : (purePosixPath member.name).isAbsolute = false
  noClimb : ['.', '.'] ∉ member.parts
  below : member.parts.head? = some data
  manifest : member.parts = manifestPath → member.kind = .regular ∧ member.size ≤ maxManifestBytes
  place : member.parts ≠ manifestPath →
    (1 < member.parts.length → member.parts.getD 1 [] ∈ backupDirectoryNames) ∧
      (member.parts.length ≤ 2 → member.kind ≠ .regular)
  noSideFile : 2 < member.parts.length → member.parts.getD 1 [] = sqlite →
    ∀ suffix ∈ sqliteSideSuffixes, ¬ suffix <:+ member.parts.getLastD []
  database : member.parts = appDbArchivePath → member.kind = .regular

/-- The path is one of a directory that the other path lies in. -/
def IsParent (parent path : Path) : Prop := parent <+: path ∧ parent ≠ path

/-- Members that can stand together. -/
structure Admissible (limits : Limits) (members : List (Member C)) : Prop where
  count : members.length ≤ limits.maxMembers
  size : (members.map Member.size).sum ≤ limits.maxBytes
  sound : ∀ member ∈ members, Sound member
  distinct : (members.map Member.parts).Nodup
  files : ∀ file ∈ members, file.kind = .regular → ∀ member ∈ members,
    ¬ IsParent file.parts member.parts

/-- A complete backup. -/
structure WellFormed (limits : Limits) (members : List (Member C)) : Prop extends
    Admissible limits members where
  hasManifest : manifestPath ∈ members.map Member.parts
  hasDatabase : appDbArchivePath ∈ members.map Member.parts

theorem Sound.parts_ne_nil {member : Member C} (hsound : Sound member) : member.parts ≠ [] := by
  intro hnil
  have hbelow := hsound.below
  rw [hnil] at hbelow
  cases hbelow

theorem Admissible.of_append {limits : Limits} {done rest : List (Member C)}
    (hadmissible : Admissible limits (done ++ rest)) : Admissible limits done where
  count := by
    have hcount := hadmissible.count
    rw [List.length_append] at hcount
    omega
  size := by
    have hsize := hadmissible.size
    rw [List.map_append, List.sum_append] at hsize
    omega
  sound member hmember := hadmissible.sound member (List.mem_append_left _ hmember)
  distinct := by
    have hdistinct := hadmissible.distinct
    rw [List.map_append] at hdistinct
    exact (List.nodup_append.mp hdistinct).1
  files file hfile hregular member hmember :=
    hadmissible.files file (List.mem_append_left _ hfile) hregular member
      (List.mem_append_left _ hmember)

/-- A well-formed archive stays so in every order. -/
theorem WellFormed.perm {limits : Limits} {members others : List (Member C)}
    (hperm : members.Perm others) (hwell : WellFormed limits members) :
    WellFormed limits others where
  count := hperm.length_eq ▸ hwell.count
  size := (hperm.map Member.size).sum_eq ▸ hwell.size
  sound member hmember := hwell.sound member (hperm.mem_iff.mpr hmember)
  distinct := (hperm.map Member.parts).nodup_iff.mp hwell.distinct
  files file hfile hregular member hmember :=
    hwell.files file (hperm.mem_iff.mpr hfile) hregular member (hperm.mem_iff.mpr hmember)
  hasManifest := (hperm.map Member.parts).mem_iff.mp hwell.hasManifest
  hasDatabase := (hperm.map Member.parts).mem_iff.mp hwell.hasDatabase

/-! ## The validator accepts the well-formed archives -/

/-- What the validator has noted after some members. -/
def noted (done : List (Member C)) : Validator := done.foldl Validator.note {}

theorem noted_concat (done : List (Member C)) (member : Member C) :
    noted (done ++ [member]) = (noted done).note member := List.foldl_concat _ _ _ _

structure Notes (done : List (Member C)) (v : Validator) : Prop where
  count : v.count = done.length
  total : v.total = (done.map Member.size).sum
  seen : v.seen = done.map Member.parts
  regularFiles : ∀ path, path ∈ v.regularFiles ↔ ∃ file ∈ done, file.kind = .regular ∧
    file.parts = path
  parents : ∀ path, path ∈ v.parents ↔ ∃ member ∈ done, path ∈ Archive.parents member.parts
  manifestFound : v.manifestFound = true ↔ manifestPath ∈ done.map Member.parts
  databaseFound : v.databaseFound = true ↔ appDbArchivePath ∈ done.map Member.parts

theorem notes (done : List (Member C)) : Notes done (noted done) := by
  induction done using List.reverseRecOn with
  | nil => constructor <;> simp [noted]
  | append_singleton done member ih =>
      rw [noted_concat]
      constructor
      · simp [Validator.note, ih.count]
      · simp [Validator.note, ih.total]
      · simp [Validator.note, ih.seen]
      · intro path
        have hnew : path ∈ (if member.isreg then [member.parts] else []) ↔
            member.kind = .regular ∧ member.parts = path := by
          unfold Member.isreg
          split_ifs with hregular <;> simp_all [eq_comm]
        simp only [Validator.note, List.mem_append, ih.regularFiles, hnew, List.mem_singleton,
          or_and_right, exists_or, exists_eq_left]
      · intro path
        simp only [Validator.note, List.mem_append, ih.parents, List.mem_singleton, or_and_right,
          exists_or, exists_eq_left]
      · simp only [Validator.note, Bool.or_eq_true, decide_eq_true_eq, ih.manifestFound,
          List.map_append, List.map_cons, List.map_nil, List.mem_append, List.mem_singleton,
          @eq_comm _ manifestPath]
      · simp only [Validator.note, Bool.or_eq_true, decide_eq_true_eq, ih.databaseFound,
          List.map_append, List.map_cons, List.map_nil, List.mem_append, List.mem_singleton,
          @eq_comm _ appDbArchivePath]

/-- The members can stand together and one more with them. -/
structure Joins (limits : Limits) (done : List (Member C)) (member : Member C) : Prop where
  count : done.length + 1 ≤ limits.maxMembers
  size : (done.map Member.size).sum + member.size ≤ limits.maxBytes
  sound : Sound member
  fresh : member.parts ∉ done.map Member.parts
  below : ∀ file ∈ done, file.kind = .regular → ¬ IsParent file.parts member.parts
  above : member.kind = .regular → ∀ other ∈ done, ¬ IsParent member.parts other.parts

theorem Admissible.concat {limits : Limits} {done : List (Member C)} {member : Member C}
    (hdone : Admissible limits done) (hjoins : Joins limits done member) :
    Admissible limits (done ++ [member]) where
  count := by simpa using hjoins.count
  size := by simpa using hjoins.size
  sound := by
    simpa [or_imp, forall_and] using And.intro hdone.sound hjoins.sound
  distinct := by
    rw [List.map_append, List.map_singleton]
    refine List.nodup_append.mpr ⟨hdone.distinct, List.nodup_singleton _, ?_⟩
    intro path hpath other hother hsame
    exact hjoins.fresh (List.mem_singleton.mp hother ▸ hsame ▸ hpath)
  files file hfile hregular other hother := by
    rcases List.mem_append.mp hfile with hfile | hfile <;>
      rcases List.mem_append.mp hother with hother | hother
    · exact hdone.files file hfile hregular other hother
    · rw [List.mem_singleton.mp hother]
      exact hjoins.below file hfile hregular
    · rw [List.mem_singleton.mp hfile] at hregular ⊢
      exact hjoins.above hregular other hother
    · rw [List.mem_singleton.mp hfile, List.mem_singleton.mp hother]
      exact fun hparent => hparent.2 rfl

theorem Admissible.joins {limits : Limits} {done rest : List (Member C)} {member : Member C}
    (hadmissible : Admissible limits (done ++ member :: rest)) : Joins limits done member := by
  have hmember : member ∈ done ++ member :: rest := by simp
  have hleft : ∀ other ∈ done, other ∈ done ++ member :: rest := fun other =>
    List.mem_append_left _
  constructor
  · have hcount := hadmissible.count
    rw [List.length_append, List.length_cons] at hcount
    omega
  · have hsize := hadmissible.size
    rw [List.map_append, List.sum_append, List.map_cons, List.sum_cons] at hsize
    omega
  · exact hadmissible.sound member hmember
  · intro hseen
    have hdistinct := hadmissible.distinct
    rw [List.map_append, List.map_cons] at hdistinct
    exact (List.nodup_append.mp hdistinct).2.2 _ hseen _ List.mem_cons_self rfl
  · exact fun file hfile hregular =>
      hadmissible.files file (hleft file hfile) hregular member hmember
  · exact fun hregular other hother =>
      hadmissible.files member hmember hregular other (hleft other hother)

/-- What the tests say when none of them holds. -/
theorem tests_eq_false_iff {limits : Limits} {v : Validator} {member : Member C} :
    (∀ test ∈ Validator.tests limits v member, test.1 = false) ↔
      v.count + 1 ≤ limits.maxMembers ∧ member.kind ≠ .special ∧
      ((purePosixPath member.name).isAbsolute = false ∧ ['.', '.'] ∉ member.parts ∧
        member.parts.head? = some data) ∧
      member.parts ∉ v.seen ∧
      (member.parts = manifestPath → member.kind = .regular ∧ member.size ≤ maxManifestBytes) ∧
      (member.parts ≠ manifestPath →
        (1 < member.parts.length → member.parts.getD 1 [] ∈ backupDirectoryNames) ∧
          (member.parts.length ≤ 2 → member.kind ≠ .regular)) ∧
      (2 < member.parts.length → member.parts.getD 1 [] = sqlite →
        ∀ suffix ∈ sqliteSideSuffixes, ¬ suffix <:+ member.parts.getLastD []) ∧
      (member.parts = appDbArchivePath → member.kind = .regular) ∧
      (∀ parent ∈ Archive.parents member.parts, parent ∉ v.regularFiles) ∧
      (member.kind = .regular → member.parts ∉ v.parents) ∧
      v.total + member.size ≤ limits.maxBytes := by
  have hhead : member.parts.head? = some data → member.parts ≠ [] := by
    intro hsome hnil
    rw [hnil] at hsome
    cases hsome
  simp only [Validator.tests, List.forall_mem_cons]
  simp [Member.isreg]
  intro _ _
  constructor
  · rintro ⟨⟨⟨⟨hrelative, hclimb⟩, -⟩, hbelow⟩, hseen, hregular, hsmall, hdir, hplace, hside,
      hdatabase, ⟨hfiles, hparents⟩, htotal⟩
    exact ⟨⟨hrelative, hclimb, hbelow⟩, hseen, fun h => ⟨hregular h, hsmall h⟩,
      fun h => ⟨hdir h, hplace h⟩, hside, hdatabase, hfiles, hparents, htotal⟩
  · rintro ⟨⟨hrelative, hclimb, hbelow⟩, hseen, hmanifest, hplace, hside, hdatabase, hfiles,
      hparents, htotal⟩
    exact ⟨⟨⟨⟨hrelative, hclimb⟩, hhead hbelow⟩, hbelow⟩, hseen, fun h => (hmanifest h).1,
      fun h => (hmanifest h).2, fun h => (hplace h).1, fun h => (hplace h).2, hside, hdatabase,
      ⟨hfiles, hparents⟩, htotal⟩

/-- A member passes every test when it can stand with those before it. -/
theorem joins_iff {limits : Limits} {done : List (Member C)} {member : Member C}
    (hdone : ∀ other ∈ done, Sound other) :
    Joins limits done member ↔
      ∀ test ∈ Validator.tests limits (noted done) member, test.1 = false := by
  have hnotes := notes done
  have hparent : ∀ other ∈ done, ∀ parent,
      parent ∈ parents other.parts ↔ IsParent parent other.parts := fun other hother parent =>
    mem_parents (hdone other hother).parts_ne_nil
  rw [tests_eq_false_iff, hnotes.count, hnotes.total, hnotes.seen]
  constructor
  · rintro ⟨hcount, hsize, hsound, hfresh, hbelow, habove⟩
    refine ⟨hcount, hsound.plain, ⟨hsound.relative, hsound.noClimb, hsound.below⟩, hfresh,
      hsound.manifest, hsound.place, hsound.noSideFile, hsound.database, ?_, ?_, hsize⟩
    · intro parent hparents hnoted
      obtain ⟨file, hfile, hregular, rfl⟩ := (hnotes.regularFiles parent).mp hnoted
      exact hbelow file hfile hregular ((mem_parents hsound.parts_ne_nil).mp hparents)
    · intro hregular hparents
      obtain ⟨other, hother, hparents⟩ := (hnotes.parents _).mp hparents
      exact habove hregular other hother ((hparent other hother _).mp hparents)
  · rintro ⟨hcount, hplain, ⟨hrelative, hclimb, hhead⟩, hfresh, hmanifest, hplace, hside,
      hdatabase, hfiles, hparents, hsize⟩
    have hsound : Sound member :=
      ⟨hplain, hrelative, hclimb, hhead, hmanifest, hplace, hside, hdatabase⟩
    refine ⟨hcount, hsize, hsound, hfresh, ?_, ?_⟩
    · intro file hfile hregular hbelow
      exact hfiles file.parts ((mem_parents hsound.parts_ne_nil).mpr hbelow)
        ((hnotes.regularFiles _).mpr ⟨file, hfile, hregular, rfl⟩)
    · intro hregular other hother habove
      exact hparents hregular
        ((hnotes.parents _).mpr ⟨other, hother, (hparent other hother _).mpr habove⟩)

/-- `check` after some members passes exactly the member that can stand with them. -/
theorem check_noted {limits : Limits} {done : List (Member C)} (hdone : Admissible limits done)
    (member : Member C) :
    (Joins limits done member ∧ Validator.check limits (noted done) member =
        .ok (member.parts, noted (done ++ [member]))) ∨
      (¬ Joins limits done member ∧ ∃ refusal,
        Validator.check limits (noted done) member = .error refusal) := by
  rw [joins_iff hdone.sound, noted_concat, Validator.check]
  rcases hfind : (Validator.tests limits (noted done) member).find? Prod.fst
    with _ | ⟨fired, refusal⟩
  · exact .inl ⟨fun test htest => by simpa using List.find?_eq_none.mp hfind test htest, rfl⟩
  · refine .inr ⟨fun hnone => ?_, refusal, rfl⟩
    have hfired := List.find?_some hfind
    rw [hnone _ (List.mem_of_find?_eq_some hfind)] at hfired
    cases hfired

theorem finish_noted (done : List (Member C)) :
    (noted done).finish = .ok () ↔
      manifestPath ∈ done.map Member.parts ∧ appDbArchivePath ∈ done.map Member.parts := by
  rw [← (notes done).manifestFound, ← (notes done).databaseFound, Validator.finish]
  cases (noted done).manifestFound <;> cases (noted done).databaseFound <;> simp

theorem admissible_nil (limits : Limits) : Admissible limits ([] : List (Member C)) := by
  constructor <;> simp

theorem validate_noted {limits : Limits} (members : List (Member C)) {done : List (Member C)}
    (hdone : Admissible limits done) :
    ((members.foldlM (fun v member => (Validator.check limits v member).map Prod.snd)
        (noted done)).bind Validator.finish = .ok () ↔ WellFormed limits (done ++ members)) := by
  induction members generalizing done with
  | nil =>
      rw [List.append_nil]
      exact (finish_noted done).trans
        ⟨fun ⟨hmanifest, hdatabase⟩ => ⟨hdone, hmanifest, hdatabase⟩,
          fun hwell => ⟨hwell.hasManifest, hwell.hasDatabase⟩⟩
  | cons member rest ih =>
      rw [List.foldlM_cons]
      rcases check_noted hdone member with ⟨hjoins, hcheck⟩ | ⟨hjoins, refusal, hcheck⟩
      · have hrest := ih (hdone.concat hjoins)
        rw [List.append_assoc, List.singleton_append] at hrest
        rw [hcheck]
        exact hrest
      · rw [hcheck]
        refine iff_of_false (fun herror => ?_) fun hwell => hjoins hwell.joins
        cases herror

/-- The archives that pass are the well-formed ones, and whether one passes does not depend on
the order of its members. -/
theorem validator_accepts_the_well_formed (limits : Limits) (members : List (Member C)) :
    (validateMembers limits members = .ok () ↔ WellFormed limits members) ∧
      ∀ others, members.Perm others →
        (validateMembers limits others = .ok () ↔ validateMembers limits members = .ok ()) := by
  have haccepts : ∀ members : List (Member C),
      validateMembers limits members = .ok () ↔ WellFormed limits members := fun members =>
    validate_noted members (admissible_nil limits)
  refine ⟨haccepts members, fun others hperm => ?_⟩
  rw [haccepts, haccepts]
  exact ⟨WellFormed.perm hperm.symm, WellFormed.perm hperm⟩

end Members

end Justup.Restore.Archive
