import Justup.Lib.JsonCodec
import Justup.Restore.Archive

/-!
# The manifest of a backup

`create_backup_manifest` describes the schema of the application database,
`validate_backup_manifest` reads the description back and checks it.
-/

namespace Justup.Restore.Manifest

open Justup.Lib Justup.Lib.JsonCodec Justup.Lib.Str

/-! ## What is created -/

/-- What the manifest takes from elsewhere. -/
structure Env where
  /-- The text of a `float` that is read. -/
  parseFloat : List Char → List Char
  /-- `hashlib.sha256(data).hexdigest()` -/
  sha256 : ByteArray → List Char
  /-- The offset of `datetime.fromisoformat(text)`; a naive time has none. -/
  fromisoformat : Str → Except String (Option Int)

def name (text : String) : Str := ofText text.toList

/-- `SCHEMA_CATEGORIES_V1` -/
inductive Category where
  | tables
  | indexes
  | views
  | triggers
  deriving DecidableEq

def Category.name : Category → Str
  | tables => Manifest.name "tables"
  | indexes => Manifest.name "indexes"
  | views => Manifest.name "views"
  | triggers => Manifest.name "triggers"

def categories : List Category := [.tables, .indexes, .views, .triggers]

/-- A row of `sqlite_schema`. -/
structure SchemaRow where
  category : Category
  name : List Char
  table : List Char
  sql : Option (List Char)

/-- `name LIKE 'sqlite\_%' ESCAPE '\'`, whatever the case. -/
def SchemaRow.isInternal (row : SchemaRow) : Bool :=
  (row.name.take 7).map Char.toLower = "sqlite_".toList

structure Database where
  userVersion : ℤ
  rows : List SchemaRow

/-- The application at the time of the backup. -/
structure Installation where
  version : List Char
  buildId : List Char
  /-- `datetime.now(UTC).isoformat()` with a `Z`. -/
  createdAt : List Char

/-- `text.encode()` -/
def encode (text : List Char) : ByteArray := (String.ofList text).toByteArray

def canonicalJson (value : Value) : ByteArray := encode (dumps value)

/-- The objects of one category, ordered by name. -/
def Database.objects (database : Database) (category : Category) : List (SchemaRow × List Char) :=
  ((database.rows.filter fun row => row.category = category && !row.isInternal).insertionSort
    fun row other => ofText row.name ≤ ofText other.name).filterMap fun row =>
      row.sql.map fun definition => (row, definition)

abbrev Members := List (Str × Value)

def entryMembers (env : Env) (object : SchemaRow × List Char) : Members :=
  [(name "name", .string (ofText object.1.name)),
    (name "table", .string (ofText object.1.table)),
    (name "definition_sha256", .string (ofText (env.sha256 (encode object.2))))]

def entry (env : Env) (object : SchemaRow × List Char) : Value := .dict (entryMembers env object)

def schemaMembers (env : Env) (database : Database) : Members :=
  categories.map fun category =>
    (category.name, .list ((database.objects category).map (entry env)))

/-- The objects of `_schema_metadata`. -/
def schemaMetadata (env : Env) (database : Database) : Value :=
  .dict (schemaMembers env database)

/-- The value whose digest is the fingerprint of a schema. -/
def fingerprinted (schemaVersion schema : Value) : Value :=
  .dict [(name "schema_version", schemaVersion), (name "schema", schema)]

def schemaDigest (env : Env) (schemaVersion schema : Value) : Str :=
  ofText (env.sha256 (canonicalJson (fingerprinted schemaVersion schema)))

def application (installation : Installation) : Members :=
  [(name "name", .string (name "justup")),
    (name "version", .string (ofText installation.version)),
    (name "build_id", .string (ofText installation.buildId))]

def described (env : Env) (database : Database) : Members :=
  [(name "engine", .string (name "sqlite")),
    (name "schema_version", .int database.userVersion),
    (name "schema_sha256", .string
      (schemaDigest env (.int database.userVersion) (schemaMetadata env database))),
    (name "schema", schemaMetadata env database)]

def manifestMembers (env : Env) (installation : Installation) (database : Database) : Members :=
  [(name "format_version", .int 1),
    (name "application", .dict (application installation)),
    (name "database", .dict (described env database)),
    (name "created_at", .string (ofText installation.createdAt))]

def createBackupManifest (env : Env) (installation : Installation) (database : Database) : Value :=
  .dict (manifestMembers env installation database)

/-- The bytes that `serialize_backup_manifest` makes of a manifest. -/
def serialize (manifest : Value) : ByteArray := encode (dumps manifest ++ ['\n'])

/-! ## What is accepted -/

def get (members : Members) (key : Str) : Option Value :=
  (members.find? fun member => member.1 = key).map Prod.snd

/-- `set(members) == set(names)` -/
def hasNames (members : Members) (names : List Str) : Bool :=
  decide (∀ key ∈ members.map Prod.fst, key ∈ names) &&
    decide (∀ key ∈ names, key ∈ members.map Prod.fst)

def isText (accept : Str → Bool) : Option Value → Bool
  | some (.string text) => accept text
  | _ => false

def isInt (accept : ℤ → Bool) : Option Value → Bool
  | some (.int value) => accept value
  | _ => false

/-- `_SHA256_RE` -/
def isSha256 (text : Str) : Bool :=
  decide (text.length = 64) &&
    text.all fun c => decide (97 ≤ c.val ∧ c.val ≤ 102 ∨ 48 ≤ c.val ∧ c.val ≤ 57)

def corrupt (reason : String) : String := "Backup corrupt! Cannot be imported. (" ++ reason ++ ")"

def applicationOk : Option Value → Bool
  | some (.dict application) =>
      hasNames application [name "name", name "version", name "build_id"] &&
        isText (· = name "justup") (get application (name "name")) &&
        isText (fun text => decide (text ≠ [] ∧ text.length ≤ 128))
          (get application (name "version")) &&
        isText (fun text => decide (text ≠ [] ∧ text.length ≤ 128))
          (get application (name "build_id"))
  | _ => false

def databaseOk (database : Members) : Bool :=
  hasNames database [name "engine", name "schema_version", name "schema_sha256", name "schema"] &&
    isText (· = name "sqlite") (get database (name "engine")) &&
    isInt (fun version => decide (1 ≤ version)) (get database (name "schema_version")) &&
    isText isSha256 (get database (name "schema_sha256"))

def entryOk : Value → Bool
  | .dict entry =>
      hasNames entry [name "name", name "table", name "definition_sha256"] &&
        isText (· ≠ []) (get entry (name "name")) && isText (· ≠ []) (get entry (name "table")) &&
        isText isSha256 (get entry (name "definition_sha256"))
  | _ => false

def entryName : Value → Str
  | .dict entry =>
      match get entry (name "name") with
      | some (.string text) => text
      | _ => []
  | _ => []

/-- `names != sorted(set(names))` does not hold. -/
def inOrder (names : List Str) : Bool := names = names.dedup.insertionSort (· ≤ ·)

def checkCategory (schema : Members) (category : Category) : Except String Unit :=
  match get schema category.name with
  | some (.list entries) =>
      if !entries.all entryOk then .error (corrupt "Schema metadata is invalid")
      else if !inOrder (entries.map entryName) then
        .error (corrupt "Schema metadata contains duplicates or is unordered")
      else .ok ()
  | _ => .error (corrupt "Schema metadata is invalid")

def checkSchema (schema : Option Value) : Except String Unit :=
  match schema with
  | some (.dict schema) =>
      if !hasNames schema (categories.map Category.name) then
        .error (corrupt "Schema metadata is invalid")
      else categories.forM (checkCategory schema)
  | _ => .error (corrupt "Schema metadata is invalid")

def checkFingerprint (env : Env) (database : Members) : Except String Unit :=
  match get database (name "schema_version"), get database (name "schema") with
  | some schemaVersion, some schema =>
      if isText (· = schemaDigest env schemaVersion schema) (get database (name "schema_sha256"))
      then .ok ()
      else .error (corrupt "Schema fingerprint does not match the manifest")
  | _, _ => .error (corrupt "Schema fingerprint does not match the manifest")

def checkCreatedAt (env : Env) (createdAt : Option Value) : Except String Unit :=
  match createdAt with
  | some (.string text) =>
      match env.fromisoformat text with
      | .ok (some 0) => .ok ()
      | _ => .error (corrupt "Manifest timestamp is invalid")
  | _ => .error (corrupt "Manifest timestamp is invalid")

def checkManifest (env : Env) : Value → Except String Unit
  | .dict manifest =>
      if !hasNames manifest
          [name "format_version", name "application", name "database", name "created_at"] then
        .error (corrupt "Manifest fields are invalid")
      else if !isInt (· = 1) (get manifest (name "format_version")) then
        .error "Backup incompatible! Manifest format version is not supported."
      else if !applicationOk (get manifest (name "application")) then
        .error (corrupt "Application metadata is invalid")
      else
        match get manifest (name "database") with
        | some (.dict database) =>
            if !databaseOk database then .error (corrupt "Database metadata is invalid")
            else do
              checkSchema (get database (name "schema"))
              checkFingerprint env database
              checkCreatedAt env (get manifest (name "created_at"))
        | _ => .error (corrupt "Database metadata is invalid")
  | _ => .error (corrupt "Manifest fields are invalid")

/-- The decoder with `_reject_duplicate_json_keys`. -/
def Env.decoder (env : Env) : Decoder where
  parseFloat := env.parseFloat
  objectPairsHook members := if (members.map Prod.fst).Nodup then some members else none

def validateBackupManifest (env : Env) (raw : ByteArray) : Except String Value :=
  if Archive.maxManifestBytes < raw.size then .error (corrupt "Manifest exceeds the size limit")
  else
    match raw.utf8Decode?.bind fun text => loads env.decoder text.toList with
    | none => .error (corrupt "Manifest is invalid JSON")
    | some manifest => (checkManifest env manifest).map fun _ => manifest

theorem decoder_rejectsDuplicates (env : Env) : env.decoder.RejectsDuplicates := by
  intro members kept
  change (if (members.map Prod.fst).Nodup then some members else none) = some kept ↔ _
  split_ifs with hnames
  · rw [Option.some_inj]
    exact ⟨fun h => ⟨h.symm, hnames⟩, fun h => h.1.symm⟩
  · exact iff_of_false (by simp) fun h => hnames h.2

/-! ## Members in another order -/

theorem get_eq_some_iff {members : Members} (hnames : (members.map Prod.fst).Nodup) {key : Str}
    {value : Value} : get members key = some value ↔ (key, value) ∈ members := by
  rw [get, Option.map_eq_some_iff]
  constructor
  · rintro ⟨⟨found, given⟩, hfind, rfl⟩
    have hkey : found = key := by simpa using List.find?_some hfind
    exact hkey ▸ List.mem_of_find?_eq_some hfind
  · intro hmember
    cases hfind : members.find? fun member => decide (member.1 = key) with
    | none => simpa using List.find?_eq_none.mp hfind _ hmember
    | some found =>
        have hkey : found.1 = key := by simpa using List.find?_some hfind
        have hsame := List.inj_on_of_nodup_map hnames (List.mem_of_find?_eq_some hfind) hmember hkey
        exact ⟨found, rfl, by rw [hsame]⟩

theorem keys_sorted (members : Members) :
    ((byName (sortMembers members)).map Prod.fst).Perm (members.map Prod.fst) := by
  refine ((byName_perm _).map _).trans (.of_eq ?_)
  rw [sortMembers_eq_map, List.map_map]
  rfl

theorem hasNames_self (members : Members) : hasNames members (members.map Prod.fst) = true := by
  simp [hasNames]

theorem hasNames_sorted (members : Members) (names : List Str) :
    hasNames (byName (sortMembers members)) names = hasNames members names := by
  simp only [hasNames, (keys_sorted members).mem_iff]

theorem get_sorted {members : Members} (hnames : (members.map Prod.fst).Nodup) (key : Str) :
    get (byName (sortMembers members)) key = (get members key).map sortKeys := by
  have hsorted := (keys_sorted members).nodup_iff.mpr hnames
  refine Option.ext fun value => ?_
  rw [get_eq_some_iff hsorted, (byName_perm _).mem_iff, sortMembers_eq_map, List.mem_map,
    Option.map_eq_some_iff]
  constructor
  · rintro ⟨⟨found, given⟩, hmember, hsame⟩
    cases hsame
    exact ⟨given, (get_eq_some_iff hnames).mpr hmember, rfl⟩
  · rintro ⟨given, hgiven, rfl⟩
    exact ⟨(key, given), (get_eq_some_iff hnames).mp hgiven, rfl⟩

/-! ## The schema of a database -/

structure Database.Sound (database : Database) : Prop where
  version : 1 ≤ database.userVersion ∧ database.userVersion < 2 ^ 31
  named : ∀ row ∈ database.rows, row.name ≠ [] ∧ row.table ≠ []
  distinct : database.rows.Pairwise fun row other =>
    row.category = other.category → row.name ≠ other.name

theorem objects_named {database : Database} (hsound : database.Sound) (category : Category) :
    ∀ object ∈ database.objects category, object.1.name ≠ [] ∧ object.1.table ≠ [] := by
  intro object hobject
  obtain ⟨row, hrow, hsql⟩ := List.mem_filterMap.mp hobject
  obtain ⟨definition, -, rfl⟩ := Option.map_eq_some_iff.mp hsql
  rw [(List.perm_insertionSort _ _).mem_iff] at hrow
  exact hsound.named row (List.mem_filter.mp hrow).1

theorem objects_increasing {database : Database} (hsound : database.Sound) (category : Category) :
    (database.objects category).Pairwise fun object other =>
      ofText object.1.name < ofText other.1.name := by
  have htotal : Std.Total fun row other : SchemaRow => ofText row.name ≤ ofText other.name :=
    ⟨fun row other => le_total (ofText row.name) (ofText other.name)⟩
  have htrans : IsTrans SchemaRow fun row other => ofText row.name ≤ ofText other.name :=
    ⟨fun _ _ _ h h' => h.trans h'⟩
  have hkept : (database.rows.filter fun row =>
      decide (row.category = category) && !row.isInternal).Pairwise
      fun row other => row.name ≠ other.name := by
    refine (hsound.distinct.filter _).imp_of_mem fun {row other} hrow hother hne => hne ?_
    simp only [List.mem_filter, Bool.and_eq_true, decide_eq_true_eq] at hrow hother
    exact hrow.2.1.trans hother.2.1.symm
  have hne := ((List.perm_insertionSort (fun row other : SchemaRow =>
    ofText row.name ≤ ofText other.name) _).pairwise_iff fun h => h.symm).mpr hkept
  have hordered := List.pairwise_insertionSort (fun row other : SchemaRow =>
    ofText row.name ≤ ofText other.name) (database.rows.filter fun row =>
      decide (row.category = category) && !row.isInternal)
  refine List.Pairwise.filterMap _ ?_ (hordered.and hne)
  rintro row other ⟨hle, hdiffer⟩ object hobject another hanother
  obtain ⟨_, -, rfl⟩ := Option.map_eq_some_iff.mp hobject
  obtain ⟨_, -, rfl⟩ := Option.map_eq_some_iff.mp hanother
  exact lt_of_le_of_ne hle fun hsame => hdiffer (ofText_injective hsame)

theorem inOrder_of_increasing {names : List Str} (hnames : names.Pairwise (· < ·)) :
    inOrder names = true := by
  have hnodup : names.Nodup := hnames.imp fun h => h.ne
  rw [inOrder, hnodup.dedup, List.Pairwise.insertionSort_eq (hnames.imp fun h => h.le)]
  exact decide_eq_true rfl

/-! ## What is created is accepted -/

theorem sortKeys_dict (members : Members) :
    sortKeys (.dict members) = .dict (byName (sortMembers members)) := by
  rw [sortKeys]

theorem entry_nodup (env : Env) (object : SchemaRow × List Char) :
    ((entryMembers env object).map Prod.fst).Nodup := by
  change [name "name", name "table", name "definition_sha256"].Nodup
  decide

theorem ofText_ne_nil {text : List Char} (hne : text ≠ []) : ofText text ≠ [] := fun hnil =>
  hne (List.map_eq_nil_iff.mp hnil)

theorem entryOk_created {env : Env} (hdigest : ∀ data, isSha256 (ofText (env.sha256 data)) = true)
    {object : SchemaRow × List Char} (hnamed : object.1.name ≠ [] ∧ object.1.table ≠ []) :
    entryOk (sortKeys (entry env object)) = true := by
  have hname : get (entryMembers env object) (name "name") =
      some (.string (ofText object.1.name)) := rfl
  have htable : get (entryMembers env object) (name "table") =
      some (.string (ofText object.1.table)) := rfl
  have hsha : get (entryMembers env object) (name "definition_sha256") =
      some (.string (ofText (env.sha256 (encode object.2)))) := rfl
  have hkeys : hasNames (entryMembers env object)
      [name "name", name "table", name "definition_sha256"] = true :=
    hasNames_self (entryMembers env object)
  rw [entry, sortKeys_dict, entryOk, hasNames_sorted, hkeys, get_sorted (entry_nodup env object),
    get_sorted (entry_nodup env object), get_sorted (entry_nodup env object), hname, htable, hsha]
  simp [sortKeys, isText, hdigest, ofText_ne_nil hnamed.1, ofText_ne_nil hnamed.2]

theorem entryName_created (env : Env) (object : SchemaRow × List Char) :
    entryName (sortKeys (entry env object)) = ofText object.1.name := by
  have hname : get (entryMembers env object) (name "name") =
      some (.string (ofText object.1.name)) := rfl
  rw [entry, sortKeys_dict, entryName, get_sorted (entry_nodup env object), hname]
  simp [sortKeys]

theorem schema_nodup (env : Env) (database : Database) :
    ((schemaMembers env database).map Prod.fst).Nodup := by
  change (categories.map Category.name).Nodup
  decide

theorem checkCategory_created {env : Env}
    (hdigest : ∀ data, isSha256 (ofText (env.sha256 data)) = true) {database : Database}
    (hsound : database.Sound) (category : Category) :
    checkCategory (byName (sortMembers (schemaMembers env database))) category = .ok () := by
  have hget : get (schemaMembers env database) category.name =
      some (.list ((database.objects category).map (entry env))) := by
    cases category <;> rfl
  have hentries :
      (((database.objects category).map (entry env)).map sortKeys).all entryOk = true := by
    simp only [List.all_map, List.all_eq_true, Function.comp]
    intro object hobject
    exact entryOk_created hdigest (objects_named hsound category object hobject)
  have hnames : inOrder ((((database.objects category).map (entry env)).map sortKeys).map
      entryName) = true := by
    refine inOrder_of_increasing ?_
    simp only [List.pairwise_map, entryName_created]
    exact objects_increasing hsound category
  rw [checkCategory, get_sorted (schema_nodup env database), hget, Option.map_some, sortKeys,
    sortItems_eq_map]
  simp only [hentries, hnames, Bool.not_true, Bool.false_eq_true, if_false]

theorem checkSchema_created {env : Env}
    (hdigest : ∀ data, isSha256 (ofText (env.sha256 data)) = true) {database : Database}
    (hsound : database.Sound) :
    checkSchema (some (sortKeys (schemaMetadata env database))) = .ok () := by
  have hkeys : hasNames (schemaMembers env database) (categories.map Category.name) = true :=
    hasNames_self (schemaMembers env database)
  rw [schemaMetadata, sortKeys_dict, checkSchema, hasNames_sorted, hkeys]
  simp [categories, checkCategory_created hdigest hsound]
  rfl

/-- An object of texts under names of their own. -/
theorem sound_dict_of {members : Members} (hnames : (members.map Prod.fst).Nodup)
    (hmembers : ∀ member ∈ members, Unpaired member.1 ∧ Sound false member.2) :
    Sound false (.dict members) :=
  .dict hnames (fun member hmember => (hmembers member hmember).1)
    fun member hmember => (hmembers member hmember).2

theorem unpaired_name (text : String) : Unpaired (name text) := unpaired_ofText _

theorem sound_text (text : List Char) : Sound false (.string (ofText text)) :=
  .string (unpaired_ofText text)

theorem sound_entry (env : Env) (object : SchemaRow × List Char) :
    Sound false (entry env object) := by
  refine sound_dict_of (entry_nodup env object) ?_
  simp only [entryMembers, List.forall_mem_cons]
  exact ⟨⟨unpaired_name _, sound_text _⟩, ⟨unpaired_name _, sound_text _⟩,
    ⟨unpaired_name _, sound_text _⟩, by simp⟩

theorem sound_schemaMetadata (env : Env) (database : Database) :
    Sound false (schemaMetadata env database) := by
  refine sound_dict_of (schema_nodup env database) fun member hmember => ?_
  obtain ⟨category, -, rfl⟩ := List.mem_map.mp hmember
  refine ⟨by cases category <;> exact unpaired_name _, .list fun item hitem => ?_⟩
  obtain ⟨object, -, rfl⟩ := List.mem_map.mp hitem
  exact sound_entry env object

theorem sound_userVersion {database : Database} (hsound : database.Sound) :
    Sound false (.int database.userVersion) := by
  have hbound : database.userVersion.natAbs < 10 ^ 10 := by
    have hversion := hsound.version
    omega
  exact .int ((Nat.toDigits_length 10 _ 10 (by decide) hbound).trans (by decide))

theorem described_nodup (env : Env) (database : Database) :
    ((described env database).map Prod.fst).Nodup := by
  change [name "engine", name "schema_version", name "schema_sha256", name "schema"].Nodup
  decide

theorem sound_described {env : Env} {database : Database} (hsound : database.Sound) :
    Sound false (.dict (described env database)) := by
  refine sound_dict_of (described_nodup env database) ?_
  simp only [described, List.forall_mem_cons]
  exact ⟨⟨unpaired_name _, sound_text _⟩, ⟨unpaired_name _, sound_userVersion hsound⟩,
    ⟨unpaired_name _, sound_text _⟩, ⟨unpaired_name _, sound_schemaMetadata env database⟩, by simp⟩

theorem application_nodup (installation : Installation) :
    ((application installation).map Prod.fst).Nodup := by
  change [name "name", name "version", name "build_id"].Nodup
  decide

theorem sound_application (installation : Installation) :
    Sound false (.dict (application installation)) := by
  refine sound_dict_of (application_nodup installation) ?_
  simp only [application, List.forall_mem_cons]
  exact ⟨⟨unpaired_name _, sound_text _⟩, ⟨unpaired_name _, sound_text _⟩,
    ⟨unpaired_name _, sound_text _⟩, by simp⟩

theorem manifest_nodup (env : Env) (installation : Installation) (database : Database) :
    ((manifestMembers env installation database).map Prod.fst).Nodup := by
  change [name "format_version", name "application", name "database", name "created_at"].Nodup
  decide

theorem sound_manifest {env : Env} {installation : Installation} {database : Database}
    (hsound : database.Sound) : Sound false (createBackupManifest env installation database) := by
  refine sound_dict_of (manifest_nodup env installation database) ?_
  simp only [manifestMembers, List.forall_mem_cons]
  exact ⟨⟨unpaired_name _, .int (by decide)⟩, ⟨unpaired_name _, sound_application installation⟩,
    ⟨unpaired_name _, sound_described hsound⟩, ⟨unpaired_name _, sound_text _⟩, by simp⟩

/-- The order of the names does not change the fingerprint. -/
theorem schemaDigest_sortKeys (env : Env) (version : ℤ) {schema : Value}
    (hschema : Sound false schema) :
    schemaDigest env (.int version) (sortKeys schema) = schemaDigest env (.int version) schema := by
  have hsame : dumps (fingerprinted (.int version) (sortKeys schema)) =
      dumps (fingerprinted (.int version) schema) := by
    rw [dumps, dumps, fingerprinted, fingerprinted, sortKeys_dict, sortKeys_dict]
    simp only [sortMembers, hschema.sortKeys_sortKeys]
  rw [schemaDigest, canonicalJson, hsame, schemaDigest, canonicalJson]

theorem checkFingerprint_created {env : Env} {database : Database} :
    checkFingerprint env (byName (sortMembers (described env database))) = .ok () := by
  have hversion : get (described env database) (name "schema_version") =
      some (.int database.userVersion) := rfl
  have hsha : get (described env database) (name "schema_sha256") = some (.string
      (schemaDigest env (.int database.userVersion) (schemaMetadata env database))) := rfl
  have hschema : get (described env database) (name "schema") =
      some (schemaMetadata env database) := rfl
  have hnodup := described_nodup env database
  rw [checkFingerprint, get_sorted hnodup, get_sorted hnodup, get_sorted hnodup, hversion, hsha,
    hschema]
  simp [sortKeys, isText, schemaDigest_sortKeys env _ (sound_schemaMetadata env database)]

theorem databaseOk_created {env : Env}
    (hdigest : ∀ data, isSha256 (ofText (env.sha256 data)) = true) {database : Database}
    (hsound : database.Sound) :
    databaseOk (byName (sortMembers (described env database))) = true := by
  have hengine : get (described env database) (name "engine") =
      some (.string (name "sqlite")) := rfl
  have hversion : get (described env database) (name "schema_version") =
      some (.int database.userVersion) := rfl
  have hsha : get (described env database) (name "schema_sha256") = some (.string
      (schemaDigest env (.int database.userVersion) (schemaMetadata env database))) := rfl
  have hkeys : hasNames (described env database)
      [name "engine", name "schema_version", name "schema_sha256", name "schema"] = true :=
    hasNames_self (described env database)
  have hnodup := described_nodup env database
  rw [databaseOk, hasNames_sorted, hkeys, get_sorted hnodup, get_sorted hnodup, get_sorted hnodup,
    hengine, hversion, hsha]
  simp [sortKeys, isText, isInt, schemaDigest, hdigest, hsound.version.1]

/-- What the texts of an installation have to be. -/
structure Installation.Fits (installation : Installation) : Prop where
  version : installation.version ≠ [] ∧ installation.version.length ≤ 128
  buildId : installation.buildId ≠ [] ∧ installation.buildId.length ≤ 128

theorem applicationOk_created {installation : Installation} (hfits : installation.Fits) :
    applicationOk (some (.dict (byName (sortMembers (application installation))))) = true := by
  have hname : get (application installation) (name "name") = some (.string (name "justup")) := rfl
  have hversion : get (application installation) (name "version") =
      some (.string (ofText installation.version)) := rfl
  have hbuild : get (application installation) (name "build_id") =
      some (.string (ofText installation.buildId)) := rfl
  have hkeys : hasNames (application installation)
      [name "name", name "version", name "build_id"] = true :=
    hasNames_self (application installation)
  have hnodup := application_nodup installation
  have hlength : ∀ text : List Char, (ofText text).length = text.length := fun text =>
    List.length_map _
  rw [applicationOk, hasNames_sorted, hkeys, get_sorted hnodup, get_sorted hnodup,
    get_sorted hnodup, hname, hversion, hbuild]
  simp [sortKeys, isText, hlength, ofText_ne_nil hfits.version.1, ofText_ne_nil hfits.buildId.1,
    hfits.version.2, hfits.buildId.2]

theorem checkManifest_created {env : Env}
    (hdigest : ∀ data, isSha256 (ofText (env.sha256 data)) = true) {installation : Installation}
    (hfits : installation.Fits) {database : Database} (hsound : database.Sound)
    (hcreated : env.fromisoformat (ofText installation.createdAt) = .ok (some 0)) :
    checkManifest env (sortKeys (createBackupManifest env installation database)) = .ok () := by
  have hversion : get (manifestMembers env installation database) (name "format_version") =
      some (.int 1) := rfl
  have happlication : get (manifestMembers env installation database) (name "application") =
      some (.dict (application installation)) := rfl
  have hdatabase : get (manifestMembers env installation database) (name "database") =
      some (.dict (described env database)) := rfl
  have hcreatedAt : get (manifestMembers env installation database) (name "created_at") =
      some (.string (ofText installation.createdAt)) := rfl
  have hschema : get (described env database) (name "schema") =
      some (schemaMetadata env database) := rfl
  have hkeys : hasNames (manifestMembers env installation database)
      [name "format_version", name "application", name "database", name "created_at"] = true :=
    hasNames_self (manifestMembers env installation database)
  have hnodup := manifest_nodup env installation database
  rw [createBackupManifest, sortKeys_dict, checkManifest, hasNames_sorted, hkeys,
    get_sorted hnodup, get_sorted hnodup, get_sorted hnodup, get_sorted hnodup, hversion,
    happlication, hdatabase, hcreatedAt]
  simp only [Option.map_some, sortKeys_dict, applicationOk_created hfits,
    databaseOk_created hdigest hsound, get_sorted (described_nodup env database), hschema,
    checkSchema_created hdigest hsound, checkFingerprint_created]
  simp [sortKeys, isInt, checkCreatedAt, hcreated]
  rfl

theorem decode_encode (text : List Char) : (encode text).utf8Decode? = some text.toArray :=
  List.utf8Decode?_utf8Encode

theorem validate_serialize {env : Env}
    (hdigest : ∀ data, isSha256 (ofText (env.sha256 data)) = true) {installation : Installation}
    (hfits : installation.Fits) {database : Database} (hsound : database.Sound)
    (hcreated : env.fromisoformat (ofText installation.createdAt) = .ok (some 0))
    (hsize : (serialize (createBackupManifest env installation database)).size ≤
      Archive.maxManifestBytes) :
    validateBackupManifest env (serialize (createBackupManifest env installation database)) =
      .ok (sortKeys (createBackupManifest env installation database)) := by
  have hread := @loads_dumps env.decoder (decoder_rejectsDuplicates env) _
    (@sound_manifest env installation database hsound) ['\n'] rfl
  rw [validateBackupManifest, if_neg (Nat.not_lt.mpr hsize), serialize, decode_encode,
    Option.bind_some, hread]
  simp only [checkManifest_created hdigest hfits hsound hcreated]
  rfl

/-- A manifest that is written and fits the limit is accepted, read as what was described, and
writing what was read gives the same bytes. -/
theorem written_manifest_is_accepted {env : Env}
    (hdigest : ∀ data, isSha256 (ofText (env.sha256 data)) = true) {installation : Installation}
    (hfits : installation.Fits) {database : Database} (hsound : database.Sound)
    (hcreated : env.fromisoformat (ofText installation.createdAt) = .ok (some 0))
    (hsize : (serialize (createBackupManifest env installation database)).size ≤
      Archive.maxManifestBytes) :
    ∃ manifest, validateBackupManifest env
        (serialize (createBackupManifest env installation database)) = .ok manifest ∧
      Same manifest (createBackupManifest env installation database) ∧
      serialize manifest = serialize (createBackupManifest env installation database) := by
  have hmanifest := @sound_manifest env installation database hsound
  refine ⟨sortKeys (createBackupManifest env installation database),
    validate_serialize hdigest hfits hsound hcreated hsize, hmanifest.same_sortKeys, ?_⟩
  rw [serialize, hmanifest.dumps_sortKeys, serialize]

def settingsTable : SchemaRow where
  category := .tables
  name := "settings".toList
  table := "settings".toList
  sql := some "CREATE TABLE settings (key TEXT PRIMARY KEY, value TEXT)".toList

def settingsDatabase : Database := ⟨6, [settingsTable]⟩

def settingsRelease : Installation :=
  ⟨"1.4.0".toList, "2f6c1e9".toList, "2026-07-01T09:30:00.250000Z".toList⟩

/-- The digests of the definition and of the schema. -/
def settingsEnv : Env where
  parseFloat := id
  sha256 data :=
    if data = encode (settingsTable.sql.getD []) then
      "9a00983ee5d5dd40769f74208a43c54875bb30bf6722c5ba29fde1217322fdf3".toList
    else "74f3ad60287351fd8523c86eac38d64382fad24f2a5df9a61760c0806163a8b9".toList
  fromisoformat text :=
    if text = ofText settingsRelease.createdAt then .ok (some 0)
    else .error "Invalid isoformat string"

theorem settingsDatabase_sound : settingsDatabase.Sound :=
  ⟨by decide, by decide, by simp [settingsDatabase]⟩

theorem settingsEnv_sha256 (data : ByteArray) :
    isSha256 (ofText (settingsEnv.sha256 data)) = true := by
  unfold settingsEnv
  dsimp only
  split_ifs <;> decide

theorem settingsEnv_fromisoformat :
    settingsEnv.fromisoformat (ofText settingsRelease.createdAt) = .ok (some 0) := by
  change (if ofText settingsRelease.createdAt = ofText settingsRelease.createdAt then
    (.ok (some 0) : Except String (Option Int)) else .error "Invalid isoformat string") = _
  exact if_pos rfl

theorem size_encode_le (text : List Char) : (encode text).size ≤ 4 * text.length := by
  change text.utf8Encode.size ≤ _
  induction text with
  | nil => simp
  | cons char text ih =>
    have hchar := char.utf8Size_le_four
    rw [List.utf8Encode_cons, ByteArray.size_append, List.utf8Encode_singleton]
    simp only [List.size_toByteArray, String.length_utf8EncodeChar, List.length_cons]
    omega

theorem settings_size :
    (serialize (createBackupManifest settingsEnv settingsRelease settingsDatabase)).size ≤
      Archive.maxManifestBytes := by
  -- the kernel counts the characters only, not the bytes
  refine (size_encode_le _).trans ?_
  decide +kernel

theorem written_manifest_is_accepted_settings :
    ∃ manifest, validateBackupManifest settingsEnv
        (serialize (createBackupManifest settingsEnv settingsRelease settingsDatabase)) =
          .ok manifest ∧
      Same manifest (createBackupManifest settingsEnv settingsRelease settingsDatabase) ∧
      serialize manifest =
        serialize (createBackupManifest settingsEnv settingsRelease settingsDatabase) :=
  written_manifest_is_accepted settingsEnv_sha256 ⟨by decide, by decide⟩ settingsDatabase_sound
    settingsEnv_fromisoformat settings_size

/-! ## The fingerprint of what is accepted -/

theorem mem_names {members : Members} {names : List Str} (hnames : hasNames members names = true)
    {key : Str} {value : Value} (hmember : (key, value) ∈ members) : key ∈ names := by
  rw [hasNames, Bool.and_eq_true, decide_eq_true_eq] at hnames
  exact hnames.1 key (List.mem_map_of_mem hmember)

theorem isText_eq_true {accept : Str → Bool} {value : Option Value}
    (htext : isText accept value = true) : ∃ text, value = some (.string text) := by
  unfold isText at htext
  split at htext
  · exact ⟨_, rfl⟩
  · cases htext

/-- An accepted entry holds texts only. -/
theorem sound_of_entryOk {entry : Value} (hread : Sound true entry) (hok : entryOk entry = true) :
    Sound false entry := by
  cases hread with
  | @dict members hnames htexts hvalues =>
      simp only [entryOk, Bool.and_eq_true] at hok
      obtain ⟨⟨⟨hkeys, hname⟩, htable⟩, hsha⟩ := hok
      refine .dict hnames htexts fun member hmember => ?_
      have htext : ∃ text, get members member.1 = some (.string text) := by
        have hkey := mem_names hkeys hmember
        simp only [List.mem_cons, List.not_mem_nil, or_false] at hkey
        rcases hkey with hkey | hkey | hkey <;> rw [hkey]
        · exact isText_eq_true hname
        · exact isText_eq_true htable
        · exact isText_eq_true hsha
      obtain ⟨text, htext⟩ := htext
      rw [(get_eq_some_iff hnames).mpr hmember] at htext
      have hvalue := hvalues member hmember
      rw [Option.some.inj htext] at hvalue ⊢
      cases hvalue with
      | string hunpaired => exact .string hunpaired
  | _ => cases hok

theorem entries_of_checkCategory {schema : Members} {category : Category}
    (hok : checkCategory schema category = .ok ()) :
    ∃ entries, get schema category.name = some (.list entries) ∧ entries.all entryOk = true := by
  unfold checkCategory at hok
  split at hok
  next entries hget =>
    refine ⟨entries, hget, ?_⟩
    by_contra hentries
    rw [Bool.not_eq_true] at hentries
    rw [hentries] at hok
    cases hok
  · cases hok

theorem checkCategory_of_forM {schema : Members} :
    ∀ {left : List Category}, left.forM (checkCategory schema) = .ok () →
      ∀ category ∈ left, checkCategory schema category = .ok ()
  | [], _, _, hcategory => by cases hcategory
  | first :: rest, hok, category, hcategory => by
      change (checkCategory schema first >>= fun _ => rest.forM (checkCategory schema)) = _ at hok
      cases hfirst : checkCategory schema first with
      | error message =>
          rw [hfirst] at hok
          cases hok
      | ok =>
          rw [hfirst] at hok
          rcases List.mem_cons.mp hcategory with rfl | hcategory
          · exact hfirst
          · exact checkCategory_of_forM hok category hcategory

/-- An accepted schema is read back as it is written. -/
theorem sound_of_checkSchema {schema : Value} (hread : Sound true schema)
    (hok : checkSchema (some schema) = .ok ()) : Sound false schema := by
  cases hread with
  | @dict members hnames htexts hvalues =>
      rw [checkSchema] at hok
      split_ifs at hok with hkeys
      simp only [Bool.not_eq_true', Bool.not_eq_false] at hkeys
      refine .dict hnames htexts fun member hmember => ?_
      obtain ⟨category, hcategory, hname⟩ := List.mem_map.mp (mem_names hkeys hmember)
      obtain ⟨entries, hget, hentries⟩ :=
        entries_of_checkCategory (checkCategory_of_forM hok category hcategory)
      rw [hname, (get_eq_some_iff hnames).mpr hmember] at hget
      have hvalue := hvalues member hmember
      rw [Option.some.inj hget] at hvalue ⊢
      cases hvalue with
      | list hitems =>
          exact .list fun item hitem =>
            sound_of_entryOk (hitems item hitem) (List.all_eq_true.mp hentries item hitem)
  | _ => cases hok

/-- What the fingerprint of a manifest is the digest of. -/
structure Fingerprinted (env : Env) (manifest : Value) (digest : Str) (schemaVersion : ℤ)
    (schema : Value) : Prop where
  parts : ∃ members database, manifest = .dict members ∧
    get members (name "database") = some (.dict database) ∧
    get database (name "schema_sha256") = some (.string digest) ∧
    get database (name "schema_version") = some (.int schemaVersion) ∧
    get database (name "schema") = some schema
  positive : 1 ≤ schemaVersion
  sound : Sound false (fingerprinted (.int schemaVersion) schema)
  digest : digest = schemaDigest env (.int schemaVersion) schema

theorem isInt_eq_true {accept : ℤ → Bool} {value : Option Value}
    (hint : isInt accept value = true) :
    ∃ given, value = some (.int given) ∧ accept given = true := by
  unfold isInt at hint
  split at hint
  · exact ⟨_, rfl, hint⟩
  · cases hint

theorem sound_get {members : Members} (hread : Sound true (.dict members)) {key : Str}
    {value : Value} (hget : get members key = some value) : Sound true value := by
  cases hread with
  | dict hnames htexts hvalues =>
      exact hvalues _ ((get_eq_some_iff hnames).mp hget)

/-- What a manifest has passed when it is accepted. -/
theorem checkManifest_eq_ok {env : Env} {manifest : Value}
    (hok : checkManifest env manifest = .ok ()) :
    ∃ members database, manifest = .dict members ∧
      get members (name "database") = some (.dict database) ∧ databaseOk database = true ∧
      checkSchema (get database (name "schema")) = .ok () ∧
      checkFingerprint env database = .ok () := by
  unfold checkManifest at hok
  split at hok
  next members =>
    split_ifs at hok
    split at hok
    next database hdatabase =>
      split_ifs at hok with hdatabaseOk
      cases hchecked : checkSchema (get database (name "schema")) with
      | error message =>
          rw [hchecked] at hok
          cases hok
      | ok =>
          rw [hchecked] at hok
          cases hprinted : checkFingerprint env database with
          | error message =>
              rw [hprinted] at hok
              cases hok
          | ok =>
              exact ⟨members, database, rfl, hdatabase, by simpa using hdatabaseOk, hchecked,
                hprinted⟩
    · cases hok
  · cases hok

theorem exists_of_checkSchema {schema : Option Value} (hok : checkSchema schema = .ok ()) :
    ∃ given, schema = some given := by
  cases schema with
  | none => cases hok
  | some given => exact ⟨given, rfl⟩

theorem fingerprinted_nodup (version schema : Value) :
    ([(name "schema_version", version), (name "schema", schema)].map Prod.fst).Nodup := by
  change [name "schema_version", name "schema"].Nodup
  decide

theorem sound_fingerprinted {schemaVersion : ℤ} {schema : Value}
    (hversion : Sound true (.int schemaVersion)) (hschema : Sound false schema) :
    Sound false (fingerprinted (.int schemaVersion) schema) := by
  refine sound_dict_of (fingerprinted_nodup _ _) ?_
  simp only [List.forall_mem_cons]
  refine ⟨⟨unpaired_name _, ?_⟩, ⟨unpaired_name _, hschema⟩, by simp⟩
  cases hversion with
  | int hlength => exact .int hlength

theorem digest_of_checkFingerprint {env : Env} {database : Members} {digest : Str}
    {schemaVersion schema : Value}
    (hsha : get database (name "schema_sha256") = some (.string digest))
    (hversion : get database (name "schema_version") = some schemaVersion)
    (hschema : get database (name "schema") = some schema)
    (hok : checkFingerprint env database = .ok ()) :
    digest = schemaDigest env schemaVersion schema := by
  rw [checkFingerprint, hversion, hschema, hsha] at hok
  dsimp only at hok
  split_ifs at hok with hsame
  simpa [isText] using hsame

theorem fingerprinted_of_check {env : Env} {manifest : Value} (hread : Sound true manifest)
    (hok : checkManifest env manifest = .ok ()) :
    ∃ digest schemaVersion schema, Fingerprinted env manifest digest schemaVersion schema := by
  obtain ⟨members, database, rfl, hdatabase, hdatabaseOk, hchecked, hprinted⟩ :=
    checkManifest_eq_ok hok
  simp only [databaseOk, Bool.and_eq_true] at hdatabaseOk
  obtain ⟨⟨⟨-, -⟩, hversion⟩, hsha⟩ := hdatabaseOk
  obtain ⟨schemaVersion, hversion, hpositive⟩ := isInt_eq_true hversion
  obtain ⟨digest, hsha⟩ := isText_eq_true hsha
  obtain ⟨schema, hschema⟩ := exists_of_checkSchema hchecked
  have hdatabaseRead := sound_get hread hdatabase
  rw [hschema] at hchecked
  exact ⟨digest, schemaVersion, schema,
    ⟨members, database, rfl, hdatabase, hsha, hversion, hschema⟩, by simpa using hpositive,
    sound_fingerprinted (sound_get hdatabaseRead hversion)
      (sound_of_checkSchema (sound_get hdatabaseRead hschema) hchecked),
    digest_of_checkFingerprint hsha hversion hschema hprinted⟩

theorem fingerprinted_of_validate {env : Env} {raw : ByteArray} {manifest : Value}
    (haccepted : validateBackupManifest env raw = .ok manifest) :
    ∃ digest schemaVersion schema, Fingerprinted env manifest digest schemaVersion schema := by
  unfold validateBackupManifest at haccepted
  split_ifs at haccepted
  split at haccepted
  · cases haccepted
  next value hloaded =>
    obtain ⟨text, -, hloaded⟩ := Option.bind_eq_some_iff.mp hloaded
    cases hchecked : checkManifest env value with
    | error message =>
        rw [hchecked] at haccepted
        cases haccepted
    | ok =>
        rw [hchecked] at haccepted
        cases haccepted
        exact fingerprinted_of_check
          (sound_of_loads (decoder_rejectsDuplicates env) hloaded) hchecked

theorem encode_injective : Function.Injective encode := by
  intro text other hsame
  have hdecoded := congrArg ByteArray.utf8Decode? hsame
  rw [decode_encode, decode_encode] at hdecoded
  simpa using hdecoded

/-- The canonical text tells the version and the schema. -/
theorem same_of_canonicalJson {version other : ℤ} {schema twin : Value}
    (hsound : Sound false (fingerprinted (.int version) schema))
    (htwin : Sound false (fingerprinted (.int other) twin))
    (htexts : canonicalJson (fingerprinted (.int version) schema) =
      canonicalJson (fingerprinted (.int other) twin)) : version = other ∧ Same schema twin := by
  have hsame := same_of_dumps_eq hsound htwin (encode_injective htexts)
  rw [Same, fingerprinted, fingerprinted, sortKeys_dict, sortKeys_dict] at hsame
  have hmembers := Value.dict.inj hsame
  have hversions := congrArg (fun members => get members (name "schema_version")) hmembers
  have hschemas := congrArg (fun members => get members (name "schema")) hmembers
  simp only [get_sorted (fingerprinted_nodup _ _)] at hversions hschemas
  constructor
  · have hints : some (sortKeys (.int version)) = some (sortKeys (.int other)) := hversions
    rw [sortKeys, sortKeys] at hints
    exact Value.int.inj (Option.some.inj hints)
  · have hsorted : some (sortKeys schema) = some (sortKeys twin) := hschemas
    exact Option.some.inj hsorted

/-- Every accepted manifest carries the fingerprint of its own schema; two that carry the same one
describe the same schema in the same version, unless their two texts are a collision. -/
theorem fingerprint_tells_the_schema {env : Env} {raw other : ByteArray} {manifest twin : Value}
    (hraw : validateBackupManifest env raw = .ok manifest)
    (hother : validateBackupManifest env other = .ok twin) :
    ∃ digest schemaVersion schema, Fingerprinted env manifest digest schemaVersion schema ∧
      ∃ otherDigest otherVersion otherSchema,
        Fingerprinted env twin otherDigest otherVersion otherSchema ∧
        (digest = otherDigest →
          (schemaVersion = otherVersion ∧ Same schema otherSchema) ∨
            canonicalJson (fingerprinted (.int schemaVersion) schema) ≠
                canonicalJson (fingerprinted (.int otherVersion) otherSchema) ∧
              env.sha256 (canonicalJson (fingerprinted (.int schemaVersion) schema)) =
                env.sha256 (canonicalJson (fingerprinted (.int otherVersion) otherSchema))) := by
  obtain ⟨digest, schemaVersion, schema, hprinted⟩ := fingerprinted_of_validate hraw
  obtain ⟨otherDigest, otherVersion, otherSchema, htwin⟩ := fingerprinted_of_validate hother
  refine ⟨digest, schemaVersion, schema, hprinted, otherDigest, otherVersion, otherSchema, htwin,
    fun hsame => ?_⟩
  rw [hprinted.digest, htwin.digest] at hsame
  by_cases htexts : canonicalJson (fingerprinted (.int schemaVersion) schema) =
      canonicalJson (fingerprinted (.int otherVersion) otherSchema)
  · exact .inl (same_of_canonicalJson hprinted.sound htwin.sound htexts)
  · exact .inr ⟨htexts, ofText_injective hsame⟩

/-- A later build of the same release. -/
def rebuiltRelease : Installation := { settingsRelease with buildId := "77ab310".toList }

theorem rebuilt_size :
    (serialize (createBackupManifest settingsEnv rebuiltRelease settingsDatabase)).size ≤
      Archive.maxManifestBytes := by
  refine (size_encode_le _).trans ?_
  decide +kernel

theorem fingerprint_tells_the_schema_rebuilt :
    ∃ digest schemaVersion schema,
      Fingerprinted settingsEnv
        (sortKeys (createBackupManifest settingsEnv settingsRelease settingsDatabase)) digest
        schemaVersion schema ∧
      ∃ otherDigest otherVersion otherSchema,
        Fingerprinted settingsEnv
          (sortKeys (createBackupManifest settingsEnv rebuiltRelease settingsDatabase)) otherDigest
          otherVersion otherSchema ∧
        (digest = otherDigest →
          (schemaVersion = otherVersion ∧ Same schema otherSchema) ∨
            canonicalJson (fingerprinted (.int schemaVersion) schema) ≠
                canonicalJson (fingerprinted (.int otherVersion) otherSchema) ∧
              settingsEnv.sha256 (canonicalJson (fingerprinted (.int schemaVersion) schema)) =
                settingsEnv.sha256
                  (canonicalJson (fingerprinted (.int otherVersion) otherSchema))) :=
  fingerprint_tells_the_schema
    (validate_serialize settingsEnv_sha256 ⟨by decide, by decide⟩ settingsDatabase_sound
      settingsEnv_fromisoformat settings_size)
    (validate_serialize settingsEnv_sha256 ⟨by decide, by decide⟩ settingsDatabase_sound
      settingsEnv_fromisoformat rebuilt_size)

end Justup.Restore.Manifest
