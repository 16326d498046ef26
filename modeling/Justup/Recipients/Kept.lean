import Justup.Lib.Table
import Justup.Lib.Transition
import Justup.Recipients.Requests

/-!
# No recipient drops out

What holds of the tables in every run of requests: every recipient can be
reached, no number is given to a second recipient, and the recipients of all
targets are assigned to every target whose list nobody edited.
-/

namespace Justup.Recipients

open Store Lib Lib.Table

/-! ## Rows and assignments -/

theorem mem_insertOrIgnore {assigned new : List (ℕ × ℕ)} {pair : ℕ × ℕ} :
    pair ∈ insertOrIgnore assigned new ↔ pair ∈ assigned ∨ pair ∈ new := by
  rw [insertOrIgnore, List.mem_append, List.mem_filter]
  by_cases hmem : pair ∈ assigned <;> simp [hmem]

theorem mem_assignToAllTargets {db : Db} {id : ℕ} {pair : ℕ × ℕ} :
    pair ∈ (db.assignToAllTargets id).assigned ↔
      pair ∈ db.assigned ∨ pair.1 ∈ db.targets ∧ pair.2 = id := by
  rw [Db.assignToAllTargets, mem_insertOrIgnore, List.mem_map]
  refine or_congr_right ⟨?_, fun h => ⟨pair.1, h.1, Prod.ext rfl h.2.symm⟩⟩
  rintro ⟨target, htarget, rfl⟩
  exact ⟨htarget, rfl⟩

theorem mem_assignFlagged {db : Db} {target : ℕ} {pair : ℕ × ℕ} :
    pair ∈ (db.assignFlagged target).assigned ↔
      pair ∈ db.assigned ∨ pair.1 = target ∧ ∃ row ∈ db.recipients,
        row.enableForAllTargets = true ∧ row.id = pair.2 := by
  rw [Db.assignFlagged, mem_insertOrIgnore, List.mem_map]
  refine or_congr_right ⟨?_, ?_⟩
  · rintro ⟨row, hrow, rfl⟩
    exact ⟨rfl, row, List.mem_of_mem_filter hrow, List.of_mem_filter hrow, rfl⟩
  · rintro ⟨hpair, row, hrow, hflag, hid⟩
    exact ⟨row, List.mem_filter.mpr ⟨hrow, hflag⟩, Prod.ext hpair.symm hid⟩

theorem getRecipient_eq_some {db : Db} {id : ℕ} {row : Recipient}
    (h : db.getRecipient id = some row) : row ∈ db.recipients ∧ row.id = id :=
  ⟨List.mem_of_find?_eq_some h, by simpa using List.find?_some h⟩

theorem getRecipient_isSome_iff {db : Db} {id : ℕ} :
    (db.getRecipient id).isSome = true ↔ ∃ row ∈ db.recipients, row.id = id := by
  simp [Db.getRecipient, List.find?_isSome]

theorem getRecipient_of_mem {db : Db} (hkeyed : Keyed Recipient.id db.recipients)
    {row : Recipient} (hrow : row ∈ db.recipients) : db.getRecipient row.id = some row := by
  obtain ⟨other, hother⟩ :=
    Option.isSome_iff_exists.mp (getRecipient_isSome_iff.mpr ⟨row, hrow, rfl⟩)
  obtain ⟨hmem, hid⟩ := getRecipient_eq_some hother
  rw [hother, hkeyed.eq_of_mem hmem hrow hid]

theorem phoneFree_iff {db : Db} {phone : Contact} {exclude : Option ℕ} :
    db.phoneFree phone exclude = true ↔
      ∀ row ∈ db.recipients, row.phone = some phone → some row.id = exclude := by
  simp only [Db.phoneFree, List.all_eq_true, Bool.or_eq_true, decide_eq_true_eq]
  refine forall₂_congr fun row _ => ?_
  rw [← imp_iff_not_or]

/-! ## The transactions -/

/-- Tables that differ at most in one recipient and its assignments. -/
structure SameBut (id : ℕ) (db db' : Db) : Prop where
  recipients : (db'.recipients.filter fun row => row.id ≠ id) =
    db.recipients.filter fun row => row.id ≠ id
  assigned : (db'.assigned.filter fun pair => pair.2 ≠ id) =
    db.assigned.filter fun pair => pair.2 ≠ id
  targets : db'.targets = db.targets

theorem filter_assignToAllTargets (db : Db) (id : ℕ) :
    ((db.assignToAllTargets id).assigned.filter fun pair => pair.2 ≠ id) =
      db.assigned.filter fun pair => pair.2 ≠ id := by
  have hnew : ((db.targets.map fun target => (target, id)).filter fun pair =>
      pair ∉ db.assigned).filter (fun pair => pair.2 ≠ id) = [] := by
    refine List.filter_eq_nil_iff.mpr fun pair hpair => ?_
    obtain ⟨target, -, rfl⟩ := List.mem_map.mp (List.mem_of_mem_filter hpair)
    simp
  rw [Db.assignToAllTargets, insertOrIgnore, List.filter_append, hnew, List.append_nil]

/-- What `create_recipient` does. -/
structure Created (db : Db) (new : Recipient) (db' : Db) (id : ℕ) : Prop where
  fresh : id = db.lastRecipient + 1
  last : db'.lastRecipient = id
  recipients : db'.recipients = db.recipients ++ [{ new with id := id }]
  targets : db'.targets = db.targets
  free : ∀ phone, new.phone = some phone → ∀ row ∈ db.recipients, row.phone ≠ some phone
  checked : new.checked = true
  assigned : ∀ pair, pair ∈ db'.assigned ↔
    pair ∈ db.assigned ∨ new.enableForAllTargets = true ∧ pair.1 ∈ db.targets ∧ pair.2 = id
  others : (db'.assigned.filter fun pair => pair.2 ≠ id) =
    db.assigned.filter fun pair => pair.2 ≠ id

theorem created_of_createRecipient {db db' : Db} {new : Recipient} {id : ℕ}
    (h : db.createRecipient new = .ok (db', id)) : Created db new db' id := by
  unfold Db.createRecipient at h
  rw [ite_eq_iff, or_iff_right (fun h => nomatch h.2)] at h
  obtain ⟨hduplicate, h⟩ := h
  rw [ite_eq_iff, or_iff_right (fun h => nomatch h.2)] at h
  obtain ⟨hchecked, h⟩ := h
  have hfree : ∀ phone, new.phone = some phone → ∀ row ∈ db.recipients,
      row.phone ≠ some phone := by
    intro phone hphone row hrow hsame
    rw [hphone, Option.any_some, Bool.not_eq_true', Bool.not_eq_false] at hduplicate
    exact nomatch phoneFree_iff.mp hduplicate row hrow hsame
  simp only [Except.ok.injEq, Prod.mk.injEq] at h
  obtain ⟨hdb, rfl⟩ := h
  have hchecked : new.checked = true := by simpa using hchecked
  by_cases hflag : new.enableForAllTargets = true
  · rw [if_pos hflag] at hdb
    subst hdb
    exact ⟨rfl, rfl, rfl, rfl, hfree, hchecked,
      fun pair => mem_assignToAllTargets.trans (by simp [hflag]), filter_assignToAllTargets ..⟩
  · rw [if_neg hflag] at hdb
    subst hdb
    exact ⟨rfl, rfl, rfl, rfl, hfree, hchecked, fun pair => by simp [hflag], rfl⟩

theorem Created.sameBut {db db' : Db} {new : Recipient} {id : ℕ} (h : Created db new db' id) :
    SameBut id db db' where
  recipients := by
    rw [h.recipients, List.filter_append]
    simp
  assigned := h.others
  targets := h.targets

/-- What `update_recipient` does. -/
structure Updated (db : Db) (id : ℕ) (update : Update) (db' : Db) : Prop where
  recipients : db'.recipients =
    db.recipients.map fun row => if row.id = id then update.apply row else row
  targets : db'.targets = db.targets
  last : db'.lastRecipient = db.lastRecipient
  phone : ∀ phone, update.phone = some phone →
    (∃ row, db.getRecipient id = some row ∧ row.phone = some phone) ∨
      ∀ row ∈ db.recipients, row.phone = some phone → row.id = id
  checked : ∀ row, db.getRecipient id = some row → (update.apply row).checked = true
  assigned : ∀ pair, pair.2 ≠ id → (pair ∈ db'.assigned ↔ pair ∈ db.assigned)
  kept : update.enableForAllTargets = none → db'.assigned = db.assigned
  on : update.enableForAllTargets = some true → (db.getRecipient id).isSome = true →
    ∀ target ∈ db.targets, (target, id) ∈ db'.assigned
  off : update.enableForAllTargets = some false → ∀ row, db.getRecipient id = some row →
    row.enableForAllTargets = true → ∀ pair ∈ db'.assigned, pair.2 ≠ id
  known : ∀ pair ∈ db'.assigned, pair ∈ db.assigned ∨ (db.getRecipient id).isSome ∧ pair.2 = id
  others : (db'.assigned.filter fun pair => pair.2 ≠ id) =
    db.assigned.filter fun pair => pair.2 ≠ id
  absent : db.getRecipient id = none → db' = db

theorem updateRow_eq_self {db : Db} {id : ℕ} (h : db.getRecipient id = none) (update : Update) :
    db.updateRow id update = db := by
  have hrows : (db.recipients.map fun row => if row.id = id then update.apply row else row) =
      db.recipients := by
    refine (List.map_congr_left fun row hrow => if_neg fun hid => ?_).trans (List.map_id _)
    have := List.find?_eq_none.mp h row hrow
    simp [hid] at this
  unfold Db.updateRow
  rw [hrows]

theorem mem_unassign {db : Db} {id : ℕ} {pair : ℕ × ℕ} :
    pair ∈ (db.unassign id).assigned ↔ pair ∈ db.assigned ∧ pair.2 ≠ id := by
  rw [Db.unassign, List.mem_filter, decide_eq_true_iff]

theorem filter_unassign (db : Db) (id : ℕ) :
    ((db.unassign id).assigned.filter fun pair => pair.2 ≠ id) =
      db.assigned.filter fun pair => pair.2 ≠ id := by
  rw [Db.unassign, List.filter_filter]
  simp

theorem updated_of_updateRecipient {db db' : Db} {id : ℕ} {update : Update}
    (h : db.updateRecipient id update = .ok db') : Updated db id update db' := by
  unfold Db.updateRecipient at h
  simp only at h
  rw [ite_eq_iff, or_iff_right (fun h => nomatch h.2)] at h
  obtain ⟨hduplicate, h⟩ := h
  rw [ite_eq_iff, or_iff_right (fun h => nomatch h.2)] at h
  obtain ⟨hchecked, h⟩ := h
  have hphone : ∀ phone, update.phone = some phone →
      (∃ row, db.getRecipient id = some row ∧ row.phone = some phone) ∨
        ∀ row ∈ db.recipients, row.phone = some phone → row.id = id := by
    intro phone hphone
    rw [hphone, Option.any_some] at hduplicate
    by_cases hsame : (db.getRecipient id).bind Recipient.phone = some phone
    · exact .inl (Option.bind_eq_some_iff.mp hsame)
    · have hfree : db.phoneFree phone (some id) = true := by simpa [hsame] using hduplicate
      exact .inr fun row hrow hrowPhone =>
        Option.some.inj (phoneFree_iff.mp hfree row hrow hrowPhone)
  have hrow : ∀ row, db.getRecipient id = some row → (update.apply row).checked = true := by
    intro row hget
    simpa [hget] using hchecked
  cases hflag : update.enableForAllTargets with
  | none =>
      rw [hflag] at h
      cases h
      exact ⟨rfl, rfl, rfl, hphone, hrow, fun _ _ => .rfl, fun _ => rfl, fun h => by simp [hflag] at h,
        fun h => by simp [hflag] at h, fun _ hpair => .inl hpair, rfl,
        fun hnone => updateRow_eq_self hnone update⟩
  | some flag =>
      cases hget : db.getRecipient id with
      | none =>
          rw [hflag, hget] at h
          cases flag <;> cases h <;>
            exact ⟨rfl, rfl, rfl, hphone, hrow, fun _ _ => .rfl, fun _ => rfl,
              fun _ h => by simp [hget] at h, fun _ row h => by simp [hget] at h,
              fun _ hpair => .inl hpair, rfl, fun hnone => updateRow_eq_self hnone update⟩
      | some row =>
          rw [hflag, hget] at h
          cases flag with
          | true =>
              cases h
              refine ⟨rfl, rfl, rfl, hphone, hrow, fun pair hpair => ?_, fun h => by simp [hflag] at h,
                fun _ _ target htarget => ?_, fun h => by simp [hflag] at h, fun pair hpair => ?_,
                filter_assignToAllTargets .., fun hnone => by simp [hget] at hnone⟩
              · rw [mem_assignToAllTargets]
                exact ⟨fun h => h.resolve_right fun h => hpair h.2, .inl⟩
              · exact mem_assignToAllTargets.mpr (.inr ⟨htarget, rfl⟩)
              · exact (mem_assignToAllTargets.mp hpair).imp_right fun h =>
                  ⟨hget ▸ rfl, h.2⟩
          | false =>
              by_cases hprevious : row.enableForAllTargets = true
              · simp only [if_pos hprevious] at h
                cases h
                refine ⟨rfl, rfl, rfl, hphone, hrow, fun pair hpair => ?_,
                  fun h => by simp [hflag] at h, fun h => by simp [hflag] at h,
                  fun _ _ _ _ pair hpair => (mem_unassign.mp hpair).2,
                  fun pair hpair => .inl (mem_unassign.mp hpair).1, filter_unassign ..,
                  fun hnone => by simp [hget] at hnone⟩
                exact mem_unassign.trans (and_iff_left hpair)
              · simp only [if_neg hprevious] at h
                cases h
                refine ⟨rfl, rfl, rfl, hphone, hrow, fun _ _ => .rfl, fun h => by simp [hflag] at h,
                  fun h => by simp [hflag] at h, fun _ other hother hon => ?_,
                  fun _ hpair => .inl hpair, rfl, fun hnone => by simp [hget] at hnone⟩
                rw [hget, Option.some_inj] at hother
                exact absurd (hother ▸ hon) hprevious

theorem Updated.sameBut {db db' : Db} {id : ℕ} {update : Update} (h : Updated db id update db') :
    SameBut id db db' where
  recipients := by
    rw [h.recipients, List.filter_map]
    refine (List.map_congr_left fun row hrow => ?_).trans (List.map_id _) |>.trans ?_
    · have hid : (if row.id = id then update.apply row else row).id ≠ id := by
        simpa using List.of_mem_filter hrow
      split_ifs at hid ⊢ with hsame
      · exact absurd hsame hid
      · rfl
    · refine List.filter_congr fun row _ => ?_
      by_cases hsame : row.id = id <;> simp [hsame, Update.apply]
  assigned := h.others
  targets := h.targets

/-! ## The invariant -/

/-- The recipient with this id has this number. -/
def Db.Holds (db : Db) (id : ℕ) (phone : Contact) : Prop :=
  ∃ row ∈ db.recipients, row.id = id ∧ row.phone = some phone

/-- What holds of the tables; `edited` has the targets whose list was edited since the flag of a
recipient was set, and `start` says which numbers were held twice from the beginning. -/
structure Sound (start : Db) (edited : List (ℕ × ℕ)) (db : Db) : Prop where
  keyed : Keyed Recipient.id db.recipients
  contact : ∀ row ∈ db.recipients, row.checked = true
  fresh : ∀ row ∈ db.recipients, row.id ≤ db.lastRecipient
  held : ∀ a ∈ db.recipients, ∀ b ∈ db.recipients, a.id ≠ b.id → ∀ phone, a.phone = some phone →
    b.phone = some phone → start.Holds a.id phone ∧ start.Holds b.id phone
  flagged : ∀ row ∈ db.recipients, row.enableForAllTargets = true → ∀ target ∈ db.targets,
    (target, row.id) ∉ edited → (target, row.id) ∈ db.assigned
  known : ∀ pair ∈ db.assigned, ∃ row ∈ db.recipients, row.id = pair.2

variable {start db db' : Db} {edited : List (ℕ × ℕ)}

theorem Sound.createRecipient (h : Sound start edited db) {new : Recipient} {id : ℕ}
    (hcreated : Created db new db' id) : Sound start edited db' := by
  obtain ⟨hid, hlast, hrecipients, htargets, hfree, hchecked, hassigned, -⟩ := hcreated
  have hother : ∀ row ∈ db.recipients, row.id ≠ id := by
    intro row hrow hsame
    have := h.fresh row hrow
    omega
  have hcases : ∀ row ∈ db'.recipients, row ∈ db.recipients ∨ row = { new with id := id } := by
    intro row hrow
    rw [hrecipients, List.mem_append, List.mem_singleton] at hrow
    exact hrow
  constructor
  · rw [hrecipients]
    exact h.keyed.snoc hother
  · intro row hrow
    obtain hrow | rfl := hcases row hrow
    · exact h.contact row hrow
    · exact hchecked
  · intro row hrow
    obtain hrow | rfl := hcases row hrow
    · have := h.fresh row hrow
      omega
    · exact hlast.ge
  · intro a ha b hb hne phone hphone hphone'
    obtain ha | rfl := hcases a ha
    · obtain hb | rfl := hcases b hb
      · exact h.held a ha b hb hne phone hphone hphone'
      · exact absurd hphone (hfree phone hphone' a ha)
    · obtain hb | rfl := hcases b hb
      · exact absurd hphone' (hfree phone hphone b hb)
      · exact absurd rfl hne
  · intro row hrow hflag target htarget hedited
    rw [htargets] at htarget
    obtain hrow | rfl := hcases row hrow
    · exact (hassigned _).mpr (.inl (h.flagged row hrow hflag target htarget hedited))
    · exact (hassigned _).mpr (.inr ⟨hflag, htarget, rfl⟩)
  · intro pair hpair
    rw [hrecipients]
    obtain hpair | ⟨-, -, hpair⟩ := (hassigned pair).mp hpair
    · obtain ⟨row, hrow, hrowId⟩ := h.known pair hpair
      exact ⟨row, List.mem_append_left _ hrow, hrowId⟩
    · exact ⟨_, List.mem_append_right _ (List.mem_singleton.mpr rfl), hpair.symm⟩

/-- The pairs that stay edited when a recipient is updated. -/
def editedAfter (edited : List (ℕ × ℕ)) (id : ℕ) (update : Update) : List (ℕ × ℕ) :=
  if update.enableForAllTargets = some true then edited.filter fun pair => pair.2 ≠ id else edited

theorem Sound.updateRecipient (h : Sound start edited db) {id : ℕ} {update : Update}
    (hupdated : Updated db id update db') :
    Sound start (editedAfter edited id update) db' := by
  have hcases : ∀ row ∈ db'.recipients, (row.id ≠ id ∧ row ∈ db.recipients) ∨
      ∃ old ∈ db.recipients, old.id = id ∧ row = update.apply old := by
    intro row hrow
    rw [hupdated.recipients] at hrow
    obtain ⟨old, hold, rfl⟩ := List.mem_map.mp hrow
    by_cases hid : old.id = id
    · exact .inr ⟨old, hold, hid, if_pos hid⟩
    · rw [if_neg hid]
      exact .inl ⟨hid, hold⟩
  have hids : ∀ old : Recipient, (if old.id = id then update.apply old else old).id = old.id := by
    intro old
    split_ifs <;> rfl
  have hphone : ∀ old ∈ db.recipients, old.id = id → ∀ phone,
      (update.apply old).phone = some phone → ∀ other ∈ db.recipients, other.id ≠ id →
      other.phone = some phone → old.phone = some phone := by
    intro old hold hid phone hnew other hother hne hsame
    simp only [Update.apply] at hnew
    split_ifs at hnew
    cases hupdate : update.phone with
    | none => rwa [hupdate, Option.none_or] at hnew
    | some given =>
        rw [hupdate, Option.some_or, Option.some_inj] at hnew
        obtain ⟨row, hrow, hrowPhone⟩ | hfree := hupdated.phone given hupdate
        · rw [← hid, getRecipient_of_mem h.keyed hold, Option.some_inj] at hrow
          rw [hrow, hrowPhone, hnew]
        · exact absurd (hfree other hother (hnew ▸ hsame)) hne
  constructor
  · rw [hupdated.recipients]
    exact h.keyed.map hids
  · intro row hrow
    obtain ⟨-, hrow⟩ | ⟨old, hold, hid, rfl⟩ := hcases row hrow
    · exact h.contact row hrow
    · exact hupdated.checked old (hid ▸ getRecipient_of_mem h.keyed hold)
  · intro row hrow
    rw [hupdated.last]
    obtain ⟨-, hrow⟩ | ⟨old, hold, hid, rfl⟩ := hcases row hrow
    · exact h.fresh row hrow
    · exact h.fresh old hold
  · intro a ha b hb hne phone hphoneA hphoneB
    obtain ⟨hidA, ha⟩ | ⟨old, hold, hid, rfl⟩ := hcases a ha
    · obtain ⟨-, hb⟩ | ⟨old, hold, hid, rfl⟩ := hcases b hb
      · exact h.held a ha b hb hne phone hphoneA hphoneB
      · exact h.held a ha old hold hne phone hphoneA
          (hphone old hold hid phone hphoneB a ha hidA hphoneA)
    · obtain ⟨hidB, hb⟩ | ⟨other, hother, hidB, rfl⟩ := hcases b hb
      · exact h.held old hold b hb hne phone
          (hphone old hold hid phone hphoneA b hb hidB hphoneB) hphoneB
      · exact absurd (hid.trans hidB.symm) hne
  · intro row hrow hflag target htarget hedited
    rw [hupdated.targets] at htarget
    obtain ⟨hne, hrow⟩ | ⟨old, hold, hid, rfl⟩ := hcases row hrow
    · refine (hupdated.assigned _ hne).mpr (h.flagged row hrow hflag target htarget ?_)
      unfold editedAfter at hedited
      split_ifs at hedited
      · exact fun hmem => hedited (List.mem_filter.mpr ⟨hmem, by simpa using hne⟩)
      · exact hedited
    · have hget := getRecipient_of_mem h.keyed hold
      rw [hid] at hget
      simp only [Update.apply] at hflag ⊢
      cases hupdate : update.enableForAllTargets with
      | none =>
          rw [hupdate, Option.getD_none] at hflag
          rw [hupdated.kept hupdate]
          refine h.flagged old hold hflag target htarget ?_
          rwa [editedAfter, hupdate, if_neg (by simp)] at hedited
      | some flag =>
          rw [hupdate, Option.getD_some] at hflag
          rw [hid]
          exact hupdated.on (hupdate.trans (congrArg some hflag)) (by rw [hget]; rfl) target htarget
  · intro pair hpair
    have hkept : ∀ old ∈ db.recipients, ∃ row ∈ db'.recipients, row.id = old.id := by
      intro old hold
      rw [hupdated.recipients]
      exact ⟨_, List.mem_map_of_mem hold, hids old⟩
    obtain hpair | ⟨hsome, hid⟩ := hupdated.known pair hpair
    · obtain ⟨old, hold, hid⟩ := h.known pair hpair
      exact hid ▸ hkept old hold
    · obtain ⟨old, hold, hold'⟩ := getRecipient_isSome_iff.mp hsome
      rw [hid, ← hold']
      exact hkept old hold

theorem Sound.deleteRecipient (h : Sound start edited db) (id : ℕ) :
    Sound start edited (db.deleteRecipient id) where
  keyed := h.keyed.filter _
  contact row hrow := h.contact row (List.mem_of_mem_filter hrow)
  fresh row hrow := h.fresh row (List.mem_of_mem_filter hrow)
  held a ha b hb := h.held a (List.mem_of_mem_filter ha) b (List.mem_of_mem_filter hb)
  flagged row hrow hflag target htarget hedited := by
    refine mem_unassign.mpr ⟨?_, by simpa using List.of_mem_filter hrow⟩
    exact h.flagged row (List.mem_of_mem_filter hrow) hflag target htarget hedited
  known pair hpair := by
    obtain ⟨hpair, hne⟩ := mem_unassign.mp hpair
    obtain ⟨row, hrow, hid⟩ := h.known pair hpair
    exact ⟨row, List.mem_filter.mpr ⟨hrow, by simpa [hid] using hne⟩, hid⟩

/-- What `set_target_recipients` does. -/
structure Edited (db : Db) (target : ℕ) (recipients : List ℕ) (db' : Db) : Prop where
  recipients : db'.recipients = db.recipients
  targets : db'.targets = db.targets
  last : db'.lastRecipient = db.lastRecipient
  others : ∀ pair, pair.1 ≠ target → (pair ∈ db'.assigned ↔ pair ∈ db.assigned)
  known : ∀ pair ∈ db'.assigned, pair ∈ db.assigned ∨ ∃ row ∈ db.recipients, row.id = pair.2

theorem edited_of_setTargetRecipients {target : ℕ} {recipients : List ℕ}
    (h : db.setTargetRecipients target recipients = some db') :
    Edited db target recipients db' := by
  unfold Db.setTargetRecipients at h
  rw [Option.ite_none_right_eq_some] at h
  obtain ⟨⟨-, hknown, -⟩, hdb⟩ := h
  cases hdb
  refine ⟨rfl, rfl, rfl, fun pair hpair => ?_, fun pair hpair => ?_⟩
  · rw [List.mem_append, List.mem_filter, List.mem_map]
    constructor
    · rintro (⟨hpair, -⟩ | ⟨id, -, rfl⟩)
      · exact hpair
      · exact absurd rfl hpair
    · exact fun hmem => .inl ⟨hmem, by simpa using hpair⟩
  · obtain hpair | hpair := List.mem_append.mp hpair
    · exact .inl (List.mem_of_mem_filter hpair)
    · obtain ⟨id, hid, rfl⟩ := List.mem_map.mp hpair
      exact .inr (getRecipient_isSome_iff.mp (List.all_eq_true.mp hknown id hid))

/-- The list of a target is edited: it counts as edited for every recipient. -/
theorem Sound.setTargetRecipients (h : Sound start edited db) {target : ℕ} {recipients : List ℕ}
    (hedited : Edited db target recipients db') :
    Sound start (edited ++ db.recipients.map fun row => (target, row.id)) db' := by
  obtain ⟨hrecipients, htargets, hlast, hothers, hknown⟩ := hedited
  constructor
  · rw [hrecipients]
    exact h.keyed
  · rw [hrecipients]
    exact h.contact
  · rw [hrecipients, hlast]
    exact h.fresh
  · rw [hrecipients]
    exact h.held
  · rw [hrecipients, htargets]
    intro row hrow hflag other hother hnot
    rw [List.mem_append, not_or] at hnot
    refine (hothers _ fun hsame => ?_).mpr (h.flagged row hrow hflag other hother hnot.1)
    exact hnot.2 (List.mem_map.mpr ⟨row, hrow, Prod.ext hsame.symm rfl⟩)
  · rw [hrecipients]
    intro pair hpair
    exact (hknown pair hpair).elim (h.known pair) fun h => h

/-- What the creation of a target does. -/
structure TargetCreated (db db' : Db) : Prop where
  recipients : db'.recipients = db.recipients
  targets : db'.targets = db.targets ++ [db.lastTarget + 1]
  last : db'.lastRecipient = db.lastRecipient
  others : ∀ pair ∈ db.assigned, pair.1 ≠ db.lastTarget + 1 → pair ∈ db'.assigned
  flagged : ∀ row ∈ db.recipients, row.enableForAllTargets = true →
    (db.lastTarget + 1, row.id) ∈ db'.assigned
  known : ∀ pair ∈ db'.assigned, pair ∈ db.assigned ∨ ∃ row ∈ db.recipients, row.id = pair.2

theorem targetCreated_of_createTarget {recipients : List ℕ}
    (h : db.createTarget recipients = some db') : TargetCreated db db' := by
  unfold Db.createTarget at h
  rw [Option.ite_none_right_eq_some] at h
  obtain ⟨-, h⟩ := h
  obtain ⟨listed, hlisted, rfl⟩ := Option.map_eq_some_iff.mp h
  have hedited : Edited { db with
      targets := db.targets ++ [db.lastTarget + 1], lastTarget := db.lastTarget + 1 }
      (db.lastTarget + 1) recipients.eraseDups listed := by
    split_ifs at hlisted
    · cases hlisted
      exact ⟨rfl, rfl, rfl, fun _ _ => .rfl, fun _ hpair => .inl hpair⟩
    · exact edited_of_setTargetRecipients hlisted
  obtain ⟨hrecipients, htargets, hlast, hothers, hknown⟩ := hedited
  refine ⟨hrecipients, htargets, hlast, fun pair hpair hne => ?_, fun row hrow hflag => ?_,
    fun pair hpair => ?_⟩
  · exact mem_assignFlagged.mpr (.inl ((hothers pair hne).mpr hpair))
  · exact mem_assignFlagged.mpr (.inr ⟨rfl, row, hrecipients ▸ hrow, hflag, rfl⟩)
  · obtain hpair | ⟨-, row, hrow, -, hid⟩ := mem_assignFlagged.mp hpair
    · exact hknown pair hpair
    · exact .inr ⟨row, hrecipients ▸ hrow, hid⟩

theorem Sound.createTarget (h : Sound start edited db) (hcreated : TargetCreated db db') :
    Sound start edited db' := by
  obtain ⟨hrecipients, htargets, hlast, hothers, hflagged, hknown⟩ := hcreated
  constructor
  · rw [hrecipients]
    exact h.keyed
  · rw [hrecipients]
    exact h.contact
  · rw [hrecipients, hlast]
    exact h.fresh
  · rw [hrecipients]
    exact h.held
  · rw [hrecipients, htargets]
    intro row hrow hflag target htarget hnot
    by_cases hnew : target = db.lastTarget + 1
    · rw [hnew]
      exact hflagged row hrow hflag
    · have hold : target ∈ db.targets := by simpa [hnew] using htarget
      exact hothers _ (h.flagged row hrow hflag target hold hnot) hnew
  · rw [hrecipients]
    intro pair hpair
    exact (hknown pair hpair).elim (h.known pair) fun h => h

theorem Sound.deleteTarget (h : Sound start edited db) (target : ℕ) :
    Sound start edited (db.deleteTarget target) where
  keyed := h.keyed
  contact := h.contact
  fresh := h.fresh
  held := h.held
  flagged row hrow hflag other hother hnot := by
    obtain ⟨hother, hne⟩ := List.mem_filter.mp hother
    exact List.mem_filter.mpr ⟨h.flagged row hrow hflag other hother hnot, hne⟩
  known pair hpair := h.known pair (List.mem_of_mem_filter hpair)

end Justup.Recipients
