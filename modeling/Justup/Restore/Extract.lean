import Justup.Restore.Archive

/-!
# What an archive leaves on the disk

`_extract_stream` validates each member right before it is written.  Whatever stops it, the
files on the disk are members of the archive at their own paths; when nothing does, they are
all of them.
-/

namespace Justup.Restore.Archive

open Justup.Store (Text)

variable {C M : Type*}

/-! ## The directory extracted into -/

inductive Node (C : Type*) where
  | directory
  | file (content : C)

/-- What lies below `dest`, by the path from there. -/
abbrev Tree (C : Type*) := Path → Option (Node C)

namespace Tree

/-- The empty directory `dest`. -/
def fresh : Tree C := fun path => if path = [] then some .directory else none

def holdsFile (tree : Tree C) (path : Path) : Bool :=
  match tree path with
  | some (.file _) => true
  | _ => false

def holdsDirectory (tree : Tree C) (path : Path) : Bool :=
  match tree path with
  | some .directory => true
  | _ => false

/-- `os.makedirs` -/
def makedirs (tree : Tree C) (path : Path) : Option (Tree C) :=
  if path.inits.any tree.holdsFile then none
  else some fun other => if other.isPrefixOf path then some .directory else tree other

def write (tree : Tree C) (path : Path) (node : Node C) : Tree C :=
  Function.update tree path (some node)

end Tree

/-- What stands behind the last slash when the slashes at the end are gone. -/
def lastName (name : Text) : Text :=
  ((name.splitOn '/').reverse.dropWhile List.isEmpty).headD []

/-- The name ends in a directory's reference to itself. -/
def Member.endsInDot (member : Member C) : Bool := lastName member.name = ['.']

/-- The directory `TarFile._extract_member` makes first. -/
def Member.upperdirs (member : Member C) : Path :=
  if member.endsInDot then member.parts else member.parts.dropLast

/-- `TarFile.extract`: what it leaves, and whether it passed. -/
def extractMember (tree : Tree C) (member : Member C) : Tree C × Bool :=
  match tree.makedirs member.upperdirs with
  | none => (tree, false)
  | some made =>
      match member.kind with
      | .special => (tree, false)
      | .directory =>
          if made.holdsFile member.parts then (made, false)
          else (made.write member.parts .directory, true)
      | .regular =>
          -- a file cannot be opened by the name of a directory
          if made.holdsDirectory member.parts then (made, false)
          else (made.write member.parts (.file member.content), true)

section Stream

variable [DecidableEq M]

/-- The loop of `_extract_stream`; `validateManifest` is `validate_backup_manifest`. -/
def extractFrom (limits : Limits) (validateManifest : C → Except String M) (manifest : M) :
    Validator → Tree C → List (Member C) → Tree C × Except Refusal Unit
  | v, tree, [] => (tree, v.finish)
  | v, tree, member :: rest =>
      match v.check limits member with
      | .error refusal => (tree, .error refusal)
      | .ok (path, v) =>
          match extractMember tree member with
          | (tree, false) => (tree, .error .extractionFailed)
          | (tree, true) =>
              if path = manifestPath then
                match tree path with
                | some (.file content) =>
                    match validateManifest content with
                    | .error message => (tree, .error (.manifestRefused message))
                    | .ok found =>
                        if found = manifest then
                          extractFrom limits validateManifest manifest v tree rest
                        else (tree, .error .manifestChanged)
                | _ => (tree, .error .extractionFailed)
              else extractFrom limits validateManifest manifest v tree rest

/-- `_extract_stream` into an empty directory. -/
def extractStream (limits : Limits) (validateManifest : C → Except String M) (manifest : M)
    (members : List (Member C)) : Tree C × Except Refusal Unit :=
  extractFrom limits validateManifest manifest {} Tree.fresh members

end Stream

/-- The files and directories of some members. -/
def treeOf (done : List (Member C)) : Tree C := fun path =>
  match done.find? fun member => member.isreg && decide (member.parts = path) with
  | some member => some (.file member.content)
  | none =>
      if path = [] ∨ done.any fun member => path.isPrefixOf member.parts then some .directory
      else none

/-! ## Writing one member -/

theorem treeOf_nil : treeOf ([] : List (Member C)) = Tree.fresh := by
  funext path
  simp [treeOf, Tree.fresh]

theorem treeOf_eq_file_iff {done : List (Member C)} (hdistinct : (done.map Member.parts).Nodup)
    {path : Path} {content : C} :
    treeOf done path = some (.file content) ↔
      ∃ member ∈ done, member.kind = .regular ∧ member.parts = path ∧ member.content = content := by
  unfold treeOf
  constructor
  · split
    next member hfind =>
      intro hnode
      have hmember := List.find?_some hfind
      simp only [Member.isreg, Bool.and_eq_true, decide_eq_true_eq] at hmember
      exact ⟨member, List.mem_of_find?_eq_some hfind, hmember.1, hmember.2, by simpa using hnode⟩
    next => split_ifs <;> simp
  · rintro ⟨member, hmember, hregular, rfl, rfl⟩
    have hfound : (done.find? fun other => other.isreg && decide (other.parts = member.parts)) =
        some member := by
      rcases hfind : done.find? fun other => other.isreg && decide (other.parts = member.parts)
        with _ | other
      · have hnone := List.find?_eq_none.mp hfind member hmember
        simp [Member.isreg, hregular] at hnone
      · have hother := List.find?_some hfind
        simp only [Bool.and_eq_true, decide_eq_true_eq] at hother
        rw [hfind, List.inj_on_of_nodup_map hdistinct (List.mem_of_find?_eq_some hfind) hmember
          hother.2]
    rw [hfound]

theorem treeOf_of_no_file {done : List (Member C)} {path : Path}
    (hnone : ∀ member ∈ done, member.kind = .regular → member.parts ≠ path) :
    treeOf done path =
      if path = [] ∨ ∃ member ∈ done, path <+: member.parts then some .directory else none := by
  have hfind : (done.find? fun member => member.isreg && decide (member.parts = path)) = none :=
    List.find?_eq_none.mpr fun member hmember hfound => by
      simp only [Member.isreg, Bool.and_eq_true, decide_eq_true_eq] at hfound
      exact hnone member hmember hfound.1 hfound.2
  rw [treeOf, hfind]
  simp

theorem holdsFile_treeOf {done : List (Member C)} {path : Path}
    (hnone : ∀ member ∈ done, member.kind = .regular → member.parts ≠ path) :
    (treeOf done).holdsFile path = false := by
  rw [Tree.holdsFile, treeOf_of_no_file hnone]
  split_ifs <;> rfl

/-- No member is a file where one that joins them needs a directory. -/
theorem Joins.no_file {limits : Limits} {done : List (Member C)} {member : Member C}
    (hjoins : Joins limits done member) {path : Path} (hpath : path <+: member.parts) :
    ∀ other ∈ done, other.kind = .regular → other.parts ≠ path := by
  rintro other hother hregular rfl
  by_cases hsame : other.parts = member.parts
  · exact hjoins.fresh (hsame ▸ List.mem_map_of_mem hother)
  · exact hjoins.below other hother hregular ⟨hpath, hsame⟩

theorem Member.upperdirs_prefix_parts (member : Member C) : member.upperdirs <+: member.parts := by
  unfold Member.upperdirs
  split_ifs
  · exact List.prefix_rfl
  · exact List.dropLast_prefix _

theorem Member.isPrefixOf_upperdirs {member : Member C} {path : Path} (hpath : path ≠ member.parts)
    (hne : member.parts ≠ []) :
    path.isPrefixOf member.upperdirs = path.isPrefixOf member.parts := by
  rw [Bool.eq_iff_iff, List.isPrefixOf_iff_prefix, List.isPrefixOf_iff_prefix]
  refine ⟨fun hupper => hupper.trans member.upperdirs_prefix_parts, fun hparts => ?_⟩
  unfold Member.upperdirs
  split_ifs
  · exact hparts
  · exact List.mem_inits _ _ |>.mp ((mem_parents hne).mpr ⟨hparts, hpath⟩)

/-- The tree with the directories above a member. -/
def above (done : List (Member C)) (member : Member C) : Tree C := fun path =>
  if path.isPrefixOf member.upperdirs then some .directory else treeOf done path

theorem makedirs_treeOf {limits : Limits} {done : List (Member C)} {member : Member C}
    (hjoins : Joins limits done member) :
    (treeOf done).makedirs member.upperdirs = some (above done member) := by
  have hnone : member.upperdirs.inits.any (treeOf done).holdsFile = false := by
    refine List.any_eq_false.mpr fun path hpath hfile => ?_
    have hupper := (List.mem_inits _ _).mp hpath
    rw [holdsFile_treeOf (hjoins.no_file (hupper.trans member.upperdirs_prefix_parts))] at hfile
    cases hfile
  rw [Tree.makedirs, hnone, if_neg Bool.false_ne_true]
  rfl

theorem treeOf_concat {limits : Limits} {done : List (Member C)} {member : Member C}
    (hjoins : Joins limits done member) (path : Path) :
    treeOf (done ++ [member]) path =
      if member.kind = .regular ∧ member.parts = path then some (.file member.content)
      else if path.isPrefixOf member.parts then some .directory
      else treeOf done path := by
  by_cases hunder : path <+: member.parts
  · have hnone := hjoins.no_file hunder
    by_cases hhere : member.kind = .regular ∧ member.parts = path
    · have hfind : (done.find? fun other => other.isreg && decide (other.parts = path)) = none :=
        List.find?_eq_none.mpr fun other hother hfound => by
          simp only [Member.isreg, Bool.and_eq_true, decide_eq_true_eq] at hfound
          exact hnone other hother hfound.1 hfound.2
      rw [if_pos hhere, treeOf, List.find?_append, hfind]
      simp [Member.isreg, hhere]
    · rw [if_neg hhere, if_pos (List.isPrefixOf_iff_prefix.mpr hunder), treeOf_of_no_file, if_pos]
      · exact .inr ⟨member, by simp, hunder⟩
      · intro other hother hregular hsame
        rcases List.mem_append.mp hother with hother | hother
        · exact hnone other hother hregular hsame
        · rw [List.mem_singleton.mp hother] at hregular hsame
          exact hhere ⟨hregular, hsame⟩
  · have hother : member.parts ≠ path := fun hsame => hunder (hsame ▸ List.prefix_rfl)
    have hbelow : path.isPrefixOf member.parts = false :=
      Bool.eq_false_iff.mpr fun h => hunder (List.isPrefixOf_iff_prefix.mp h)
    rw [if_neg fun h => hother h.2, hbelow, if_neg Bool.false_ne_true, treeOf, treeOf,
      List.find?_append, List.any_append]
    simp [hother, hbelow]

theorem above_parts_of_not_regular {limits : Limits} {done : List (Member C)} {member : Member C}
    (hjoins : Joins limits done member) : (above done member).holdsFile member.parts = false := by
  unfold Tree.holdsFile above
  split_ifs
  · rfl
  · exact holdsFile_treeOf (hjoins.no_file List.prefix_rfl)

/-- Only the name of a directory can keep the file of a member from being opened. -/
theorem above_parts_of_regular {limits : Limits} {done : List (Member C)} {member : Member C}
    (hjoins : Joins limits done member) (hregular : member.kind = .regular) :
    (above done member).holdsDirectory member.parts = member.endsInDot := by
  have hne := hjoins.sound.parts_ne_nil
  have hfree : treeOf done member.parts = none := by
    rw [treeOf_of_no_file (hjoins.no_file List.prefix_rfl), if_neg]
    rintro (hnil | ⟨other, hother, hunder⟩)
    · exact hne hnil
    · refine hjoins.above hregular other hother ⟨hunder, fun hsame => ?_⟩
      exact hjoins.fresh (hsame ▸ List.mem_map_of_mem hother)
  unfold Tree.holdsDirectory above Member.upperdirs
  by_cases hdot : member.endsInDot
  · simp [hdot]
  · have hlast : ¬ member.parts <+: member.parts.dropLast := fun hunder => by
      have hlength := hunder.length_le
      have hpos := List.length_pos_iff.mpr hne
      rw [List.length_dropLast] at hlength
      omega
    simp [hdot, hfree, hlast]

/-- A member that passed `check` is written as it stands, unless it is a file under the name of
a directory. -/
theorem extractMember_treeOf {limits : Limits} {done : List (Member C)} {member : Member C}
    (hjoins : Joins limits done member) :
    (member.kind = .regular → member.endsInDot = false) ∧
        extractMember (treeOf done) member = (treeOf (done ++ [member]), true) ∨
      (member.kind = .regular ∧ member.endsInDot = true) ∧
        extractMember (treeOf done) member = (above done member, false) := by
  have hwritten : ∀ path, path ≠ member.parts →
      above done member path = treeOf (done ++ [member]) path := fun path hpath => by
    rw [treeOf_concat hjoins, if_neg fun h => hpath h.2.symm, above,
      Member.isPrefixOf_upperdirs hpath hjoins.sound.parts_ne_nil]
  rw [extractMember, makedirs_treeOf hjoins]
  cases hkind : member.kind with
  | special => exact absurd hkind hjoins.sound.plain
  | directory =>
      refine .inl ⟨fun h => MemberKind.noConfusion h, ?_⟩
      simp only [above_parts_of_not_regular hjoins, Bool.false_eq_true, if_false, Prod.mk.injEq,
        and_true]
      funext path
      by_cases hpath : path = member.parts
      · rw [hpath, Tree.write, Function.update_self, treeOf_concat hjoins, if_neg (by simp [hkind]),
          if_pos (List.isPrefixOf_iff_prefix.mpr List.prefix_rfl)]
      · rw [Tree.write, Function.update_of_ne hpath, hwritten path hpath]
  | regular =>
      simp only [above_parts_of_regular hjoins hkind]
      cases hdot : member.endsInDot with
      | true => exact .inr ⟨⟨trivial, rfl⟩, rfl⟩
      | false =>
          refine .inl ⟨fun _ => rfl, ?_⟩
          simp only [Bool.false_eq_true, if_false, Prod.mk.injEq, and_true]
          funext path
          by_cases hpath : path = member.parts
          · rw [hpath, Tree.write, Function.update_self, treeOf_concat hjoins, if_pos ⟨hkind, rfl⟩]
          · rw [Tree.write, Function.update_of_ne hpath, hwritten path hpath]

/-! ## Writing an archive -/

/-- Every file of the tree is a member at its own path, and every directory is on the way to one. -/
structure Within (tree : Tree C) (members : List (Member C)) : Prop where
  files : ∀ path content, tree path = some (.file content) →
    ∃ member ∈ members, member.kind = .regular ∧ member.parts = path ∧ member.content = content
  directories : ∀ path, tree path = some .directory →
    path = [] ∨ ∃ member ∈ members, path <+: member.parts

theorem within_treeOf {done : List (Member C)} (hdistinct : (done.map Member.parts).Nodup) :
    Within (treeOf done) done where
  files _ _ := (treeOf_eq_file_iff hdistinct).mp
  directories path hpath := by
    unfold treeOf at hpath
    split at hpath
    · cases hpath
    · split_ifs at hpath with hdirectory
      simpa using hdirectory

theorem within_above {limits : Limits} {done : List (Member C)} {member : Member C}
    (hdone : Admissible limits done) : Within (above done member) (done ++ [member]) where
  files path content hpath := by
    unfold above at hpath
    split_ifs at hpath
    · cases hpath
    obtain ⟨other, hother, hfile⟩ := (within_treeOf hdone.distinct).files path content hpath
    exact ⟨other, List.mem_append_left _ hother, hfile⟩
  directories path hpath := by
    unfold above at hpath
    split_ifs at hpath with hupper
    · exact .inr ⟨member, by simp,
        (List.isPrefixOf_iff_prefix.mp hupper).trans member.upperdirs_prefix_parts⟩
    · refine ((within_treeOf hdone.distinct).directories path hpath).imp_right ?_
      exact fun ⟨other, hother, hunder⟩ => ⟨other, List.mem_append_left _ hother, hunder⟩

section Stream

variable {limits : Limits} {validateManifest : C → Except String M} {manifest : M}

/-- Nothing but the rules for archives keeps the member from being written. -/
structure Extractable (validateManifest : C → Except String M) (manifest : M)
    (member : Member C) : Prop where
  openable : member.kind = .regular → member.endsInDot = false
  manifest : member.parts = manifestPath → validateManifest member.content = .ok manifest

/-- How the loop of `_extract_stream` ends that has written some members. -/
structure Extraction (limits : Limits) (validateManifest : C → Except String M) (manifest : M)
    (done rest : List (Member C)) (result : Tree C × Except Refusal Unit) : Prop where
  within : ∃ written, written <+: rest ∧ Admissible limits (done ++ written) ∧
    Within result.1 (done ++ written)
  passes : result.2 = .ok () ↔ WellFormed limits (done ++ rest) ∧
    ∀ member ∈ rest, Extractable validateManifest manifest member
  complete : result.2 = .ok () → result.1 = treeOf (done ++ rest)

/-- The loop stopped at a member. -/
theorem Extraction.stopped {done rest : List (Member C)} {member : Member C} {tree : Tree C}
    {refusal : Refusal}
    (hwithin : ∃ written, written <+: member :: rest ∧ Admissible limits (done ++ written) ∧
      Within tree (done ++ written))
    (hmember : ¬ (Joins limits done member ∧ Extractable validateManifest manifest member)) :
    Extraction limits validateManifest manifest done (member :: rest) (tree, .error refusal) where
  within := hwithin
  passes := iff_of_false (fun herror => by cases herror) fun ⟨hwell, hall⟩ =>
    hmember ⟨hwell.joins, hall member List.mem_cons_self⟩
  complete herror := by cases herror

/-- The loop went on after a member. -/
theorem Extraction.next {done rest : List (Member C)} {member : Member C}
    {result : Tree C × Except Refusal Unit}
    (hmember : Extractable validateManifest manifest member)
    (hnext : Extraction limits validateManifest manifest (done ++ [member]) rest result) :
    Extraction limits validateManifest manifest done (member :: rest) result where
  within := by
    obtain ⟨written, hwritten, hadmissible, hwithin⟩ := hnext.within
    rw [List.append_assoc, List.singleton_append] at hadmissible hwithin
    exact ⟨member :: written, List.cons_prefix_cons.mpr ⟨rfl, hwritten⟩, hadmissible, hwithin⟩
  passes := by
    rw [hnext.passes, List.append_assoc, List.singleton_append, List.forall_mem_cons]
    exact ⟨fun ⟨hwell, hall⟩ => ⟨hwell, hmember, hall⟩, fun ⟨hwell, _, hall⟩ => ⟨hwell, hall⟩⟩
  complete hok := by simpa using hnext.complete hok

theorem extractFrom_noted [DecidableEq M] (rest : List (Member C)) {done : List (Member C)}
    (hdone : Admissible limits done) :
    Extraction limits validateManifest manifest done rest
      (extractFrom limits validateManifest manifest (noted done) (treeOf done) rest) := by
  induction rest generalizing done with
  | nil =>
      refine ⟨⟨[], List.prefix_rfl, by simpa using hdone, ?_⟩, ?_, fun _ => ?_⟩
      · rw [List.append_nil]
        exact within_treeOf hdone.distinct
      · rw [List.append_nil]
        exact (finish_noted done).trans
          ⟨fun ⟨hmanifest, hdatabase⟩ => ⟨⟨hdone, hmanifest, hdatabase⟩, by simp⟩,
            fun ⟨hwell, _⟩ => ⟨hwell.hasManifest, hwell.hasDatabase⟩⟩
      · rw [List.append_nil]
        rfl
  | cons member rest ih =>
      rw [extractFrom]
      rcases check_noted hdone member with ⟨hjoins, hcheck⟩ | ⟨hjoins, refusal, hcheck⟩
      · have hnext := hdone.concat hjoins
        have hafter : ∃ written, written <+: member :: rest ∧ Admissible limits (done ++ written) ∧
            Within (treeOf (done ++ [member])) (done ++ written) :=
          ⟨[member], by simp, hnext, within_treeOf hnext.distinct⟩
        simp only [hcheck]
        rcases extractMember_treeOf hjoins with ⟨hopenable, hextract⟩ | ⟨hdot, hextract⟩
        · simp only [hextract]
          split_ifs with hmanifest
          · have hcontent : treeOf (done ++ [member]) member.parts = some (.file member.content) :=
              (treeOf_eq_file_iff hnext.distinct).mpr
                ⟨member, by simp, (hjoins.sound.manifest hmanifest).1, rfl, rfl⟩
            simp only [hcontent]
            cases hfound : validateManifest member.content with
            | error message =>
                refine .stopped hafter fun ⟨_, hall⟩ => ?_
                cases hfound.symm.trans (hall.manifest hmanifest)
            | ok found =>
                simp only
                split_ifs with hsame
                · exact .next ⟨hopenable, fun _ => by rw [hfound, hsame]⟩ (ih hnext)
                · refine .stopped hafter fun ⟨_, hall⟩ => hsame ?_
                  have hgiven := hall.manifest hmanifest
                  rw [hfound] at hgiven
                  exact Except.ok.inj hgiven
          · exact .next ⟨hopenable, fun h => absurd h hmanifest⟩ (ih hnext)
        · simp only [hextract]
          refine .stopped ⟨[member], by simp, hnext, within_above hdone⟩ fun ⟨_, hall⟩ => ?_
          have hopenable := hall.openable hdot.1
          rw [hdot.2] at hopenable
          cases hopenable
      · simp only [hcheck]
        refine .stopped ⟨[], List.nil_prefix, by simpa using hdone, ?_⟩ fun ⟨hmember, _⟩ =>
          hjoins hmember
        rw [List.append_nil]
        exact within_treeOf hdone.distinct

theorem extraction_extractStream [DecidableEq M] (limits : Limits)
    (validateManifest : C → Except String M) (manifest : M) (members : List (Member C)) :
    Extraction limits validateManifest manifest [] members
      (extractStream limits validateManifest manifest members) := by
  rw [extractStream, ← treeOf_nil]
  exact extractFrom_noted members (admissible_nil limits)

/-- Whatever ends an extraction, the disk holds nothing but members that can stand in a backup, at
their own paths; it passes when the archive is well formed, its files can be opened and the
manifest is the given one, and then the disk holds all of it. -/
theorem extraction_follows_the_archive [DecidableEq M] (limits : Limits)
    (validateManifest : C → Except String M) (manifest : M) (members : List (Member C)) :
    (∃ written, written <+: members ∧ Admissible limits written ∧
        Within (extractStream limits validateManifest manifest members).1 written) ∧
      ((extractStream limits validateManifest manifest members).2 = .ok () ↔
        WellFormed limits members ∧
          ∀ member ∈ members, Extractable validateManifest manifest member) ∧
      ((extractStream limits validateManifest manifest members).2 = .ok () →
        (extractStream limits validateManifest manifest members).1 = treeOf members) := by
  have hextraction := extraction_extractStream limits validateManifest manifest members
  exact ⟨hextraction.within, hextraction.passes, hextraction.complete⟩

end Stream

end Justup.Restore.Archive
