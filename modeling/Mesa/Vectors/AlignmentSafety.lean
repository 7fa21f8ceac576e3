/-
What the alignment leaves of the active tables, for every set of operations that raise. Up to the promotion a table
is only read; in the promotion it is gone for good when it was dropped and neither the rename nor the copy that
stands in for it puts the new table in its place.
-/
import Mesa.Vectors.Alignment

namespace Mesa.Vectors

open Mesa.Foundation

variable {E : Type} {faults : AlignStep → Bool} {s : VectorStore E} {name source dest : String}

/-! ## Operations -/

theorem lookup_drop (s : VectorStore E) (name n : String) :
    (s.drop name).lookup n = if name = n then none else s.lookup n :=
  Table.lookup_delete_key name fun _ => rfl

theorem hasKey_of_lookup {t : VectorTable E} (h : s.lookup name = some t) : s.hasKey name = true :=
  Table.hasKey_iff.2 (by rw [h]; rfl)

theorem mem_names : name ∈ s.rows.map VectorTable.name ↔ s.hasKey name = true := by
  unfold Table.hasKey
  rw [List.any_eq_true, List.mem_map]
  exact exists_congr fun t => and_congr_right fun _ => decide_eq_true_iff.symm

theorem storeOp_faulty {step : AlignStep} {f : VectorStore E → Option (VectorStore E)} (h : faults step = true) :
    storeOp step f faults s = (.error (), s) := by
  unfold storeOp
  rw [if_pos h]

theorem storeOp_none {step : AlignStep} {f : VectorStore E → Option (VectorStore E)} (h : f s = none) :
    storeOp step f faults s = (.error (), s) := by
  unfold storeOp
  rw [h, ite_self]

theorem storeOp_some {step : AlignStep} {f : VectorStore E → Option (VectorStore E)} {s' : VectorStore E}
    (hfault : faults step = false) (h : f s = some s') : storeOp step f faults s = (.ok (), s') := by
  unfold storeOp
  rw [hfault, if_neg Bool.false_ne_true, h]

theorem dropTable_there {step : AlignStep} (hfault : faults step = false) (h : s.hasKey name = true) :
    dropTable step name faults s = (.ok (), s.drop name) :=
  storeOp_some hfault (if_pos h)

theorem dropTable_absent {step : AlignStep} (h : s.hasKey name = false) :
    dropTable step name faults s = (.error (), s) :=
  storeOp_none (if_neg (by rw [h]; exact Bool.false_ne_true))

theorem drop_absent (h : s.hasKey name = false) : s.drop name = s := by
  refine Table.delete_eq_self fun t ht => decide_eq_false ?_
  rintro rfl
  exact Bool.false_ne_true (h.symm.trans (hasKey_of_lookup (Table.lookup_of_mem ht)))

/-- A drop takes the table away, or raises and leaves everything. -/
theorem logged_drop (step : AlignStep) (name : String) (faults : AlignStep → Bool) (s : VectorStore E) :
    logged (dropTable step name) faults s = (.ok (), if faults step then s else s.drop name) := by
  cases hfault : faults step with
  | true => exact Prog.handle_error (storeOp_faulty hfault)
  | false =>
    rw [if_neg Bool.false_ne_true]
    cases h : s.hasKey name with
    | true => exact Prog.handle_ok (dropTable_there hfault h)
    | false =>
      rw [drop_absent h]
      exact Prog.handle_error (dropTable_absent h)

/-- A drop of a table that may be there raises, or the table is gone. -/
theorem dropExisting_cases (list drop : AlignStep) (name : String) (faults : AlignStep → Bool) (s : VectorStore E) :
    ((faults list = true ∨ s.hasKey name = true ∧ faults drop = true) ∧
      dropExisting list drop name faults s = (.error (), s)) ∨
    faults list = false ∧ (s.hasKey name = true → faults drop = false) ∧
      dropExisting list drop name faults s = (.ok (), s.drop name) := by
  unfold dropExisting
  cases hlist : faults list with
  | true => exact .inl ⟨.inl rfl, Prog.bind_error (by unfold listTables; rw [hlist, if_pos rfl])⟩
  | false =>
    have hlisted : listTables list faults s = (.ok (s.rows.map VectorTable.name), s) := by
      unfold listTables
      rw [hlist, if_neg Bool.false_ne_true]
    rw [show (_ : Except Unit Unit × VectorStore E) = _ from Prog.bind_ok hlisted]
    cases hthere : s.hasKey name with
    | false =>
      rw [if_neg (by rw [mem_names, hthere]; exact Bool.false_ne_true), drop_absent hthere]
      exact .inr ⟨rfl, fun h => (by cases h), rfl⟩
    | true =>
      rw [if_pos (mem_names.2 hthere)]
      cases hdrop : faults drop with
      | true => exact .inl ⟨.inr ⟨rfl, rfl⟩, storeOp_faulty hdrop⟩
      | false => exact .inr ⟨rfl, fun _ => rfl, dropTable_there hdrop hthere⟩

/-! ## Copies -/

/-- The operations of a copy do not raise; `stale` tells whether its destination is there before. -/
def copies (phase : CopyStep → AlignStep) (faults : AlignStep → Bool) (stale : Bool) : Bool :=
  !faults (phase .listing) && (!stale || !faults (phase .dropping)) && !faults (phase .opening) &&
    !faults (phase .reading) && !faults (phase .creating)

theorem writeRecords_run {phase : CopyStep → AlignStep} {f : List (VectorRecord E) → Option (List (VectorRecord E))}
    {t : VectorTable E} (h : s.lookup source = some t) (habsent : s.hasKey dest = false) :
    writeRecords phase f source dest faults s =
    match f t.records with
    | some records =>
      if faults (phase .opening) || faults (phase .reading) || faults (phase .creating) then (.error (), s)
      else (.ok (), s.insertOrIgnore ⟨dest, records⟩)
    | none => (.error (), s) := by
  have hopen : faults (phase .opening) = false → openTable (phase .opening) source faults s = (.ok (), s) :=
    fun hfault => storeOp_some hfault (if_pos (hasKey_of_lookup h))
  have hread : faults (phase .reading) = false → readTable (phase .reading) source faults s = (.ok t.records, s) := by
    intro hfault
    unfold readTable
    rw [hfault, if_neg Bool.false_ne_true, h]
  cases hopening : faults (phase .opening) with
  | true =>
    refine (Prog.bind_error (storeOp_faulty hopening)).trans ?_
    cases f t.records <;> rfl
  | false =>
    refine (Prog.bind_ok (hopen hopening)).trans ?_
    cases hreading : faults (phase .reading) with
    | true =>
      refine (Prog.bind_error (e := ()) (t := s) ?_).trans ?_
      · unfold readTable
        rw [hreading, if_pos rfl]
      · cases f t.records <;> rfl
    | false =>
      refine (Prog.bind_ok (hread hreading)).trans ?_
      cases f t.records with
      | none => rfl
      | some records =>
        cases hcreating : faults (phase .creating) with
        | true => exact storeOp_faulty hcreating
        | false => exact storeOp_some hcreating (if_neg (by rw [habsent]; exact Bool.false_ne_true))

/-- The two ways in which a copy can end. -/
inductive Rewritten (phase : CopyStep → AlignStep) (f : List (VectorRecord E) → Option (List (VectorRecord E)))
    (faults : AlignStep → Bool) (s : VectorStore E) (t : VectorTable E) (dest : String) :
    Except Unit Unit × VectorStore E → Prop
  | done {s' : VectorStore E} (records : List (VectorRecord E)) (hcopies : copies phase faults (s.hasKey dest) = true)
      (hrecords : f t.records = some records) (hothers : ∀ n, n ≠ dest → s'.lookup n = s.lookup n)
      (hdest : s'.lookup dest = some ⟨dest, records⟩) : Rewritten phase f faults s t dest (.ok (), s')
  | raised {s' : VectorStore E} (hfails : copies phase faults (s.hasKey dest) = false ∨ f t.records = none)
      (hothers : ∀ n, n ≠ dest → s'.lookup n = s.lookup n)
      (hdest : s'.lookup dest = if faults (phase .listing) || faults (phase .dropping) then s.lookup dest else none) :
      Rewritten phase f faults s t dest (.error (), s')

theorem rewriteTable_spec {phase : CopyStep → AlignStep} {f : List (VectorRecord E) → Option (List (VectorRecord E))}
    {t : VectorTable E} (h : s.lookup source = some t) (hne : dest ≠ source) :
    Rewritten phase f faults s t dest (rewriteTable phase f source dest faults s) := by
  rcases dropExisting_cases (phase .listing) (phase .dropping) dest faults s with
    ⟨hfault, hraised⟩ | ⟨hlisting, hdropping, hdropped⟩
  · have hrun : rewriteTable phase f source dest faults s = (.error (), s) := Prog.bind_error hraised
    rw [hrun]
    refine .raised (.inl ?_) (fun _ _ => rfl) ?_
    · unfold copies
      rcases hfault with hlisting | ⟨hstale, hdropping⟩
      · rw [hlisting]
        rfl
      · rw [hstale, hdropping, Bool.not_true, Bool.or_self, Bool.and_false, Bool.false_and, Bool.false_and,
          Bool.false_and]
    · rw [if_pos]
      rcases hfault with hlisting | ⟨-, hdropping⟩
      · rw [hlisting, Bool.true_or]
      · rw [hdropping, Bool.or_true]
  · have hsource : (s.drop dest).lookup source = some t := by rw [lookup_drop, if_neg hne, h]
    have habsent : (s.drop dest).hasKey dest = false := Table.hasKey_eq_false.2 (by rw [lookup_drop, if_pos rfl])
    have hrun : rewriteTable phase f source dest faults s = _ :=
      (Prog.bind_ok hdropped).trans (writeRecords_run hsource habsent)
    rw [hrun]
    have hcopies : copies phase faults (s.hasKey dest) =
        !(faults (phase .opening) || faults (phase .reading) || faults (phase .creating)) := by
      unfold copies
      rw [hlisting, Bool.not_false, Bool.true_and, Bool.not_or, Bool.not_or]
      cases hstale : s.hasKey dest with
      | false => rw [Bool.not_false, Bool.true_or, Bool.true_and]
      | true => rw [hdropping hstale, Bool.not_false, Bool.or_true, Bool.true_and]
    have hothers : ∀ n, n ≠ dest → (s.drop dest).lookup n = s.lookup n :=
      fun n hn => by rw [lookup_drop, if_neg hn.symm]
    have hdest : (s.drop dest).lookup dest =
        if faults (phase .listing) || faults (phase .dropping) then s.lookup dest else none := by
      rw [lookup_drop, if_pos rfl, hlisting, Bool.false_or]
      cases hstale : s.lookup dest with
      | none => rw [ite_self]
      | some x => rw [hdropping (hasKey_of_lookup hstale), if_neg Bool.false_ne_true]
    cases hrecords : f t.records with
    | none => exact .raised (.inr hrecords) hothers hdest
    | some records =>
      dsimp only
      split
      next hfails => exact .raised (.inl (by rw [hcopies, hfails]; rfl)) hothers hdest
      next hfine =>
        refine .done records (by rw [hcopies, eq_false_of_ne_true hfine]; rfl) hrecords (fun n hn => ?_) ?_
        · rw [Table.lookup_insertOrIgnore_of_ne (Ne.symm hn), hothers n hn]
        · rw [Table.lookup_insertOrIgnore, lookup_drop, if_pos rfl, Option.none_or]
          exact if_pos rfl

/-! ## Promotion -/

/-- The operations of a promotion lose the table: it was dropped, and what was to take its place is not there. -/
def loses (faults : AlignStep → Bool) : Bool :=
  let unwritten := faults (.fallback .opening) || faults (.fallback .reading) || faults (.fallback .creating)
  if faults .dropActive then !faults (.fallback .listing) && !faults (.fallback .dropping) && unwritten
  else faults .rename && (faults (.fallback .listing) || unwritten)

theorem loses_kept (h : faults .dropActive = true) :
    loses faults = (!copies .fallback faults true && !(faults (.fallback .listing) || faults (.fallback .dropping))) := by
  unfold loses copies
  rw [if_pos h]
  cases faults (.fallback .listing) <;> cases faults (.fallback .dropping) <;> cases faults (.fallback .opening) <;>
    cases faults (.fallback .reading) <;> cases faults (.fallback .creating) <;> rfl

theorem loses_dropped (h : faults .dropActive = false) :
    loses faults = (faults .rename && !copies .fallback faults false) := by
  unfold loses copies
  rw [if_neg (by rw [h]; exact Bool.false_ne_true)]
  cases faults (.fallback .listing) <;> cases faults (.fallback .opening) <;> cases faults (.fallback .reading) <;>
    cases faults (.fallback .creating) <;> rfl

/-- The rest of a promotion after the rename has raised. -/
def copyBack (active new : String) : Aligning E Unit := do
  copyTable .fallback new active
  logged (dropTable .dropNew new)

theorem copyBack_spec {active new : String} {n : VectorTable E} (hnew : s.lookup new = some n) (hne : active ≠ new) :
    ∃ r s', copyBack active new faults s = (r, s') ∧ (∀ m, m ≠ active → m ≠ new → s'.lookup m = s.lookup m) ∧
      s'.lookup active = if copies .fallback faults (s.hasKey active) then some ⟨active, n.records⟩
        else if faults (.fallback .listing) || faults (.fallback .dropping) then s.lookup active else none := by
  have hspec : Rewritten .fallback some faults s n active (copyTable .fallback new active faults s) :=
    rewriteTable_spec hnew hne
  generalize hrun : copyTable .fallback new active faults s = run at hspec
  cases hspec with
  | @done s' records hcopies hrecords hothers hdest =>
    cases hrecords
    refine ⟨_, _, (Prog.bind_ok hrun).trans (logged_drop _ _ _ _), fun m hactive hnew => ?_, ?_⟩
    · split
      · exact hothers m hactive
      · rw [lookup_drop, if_neg (Ne.symm hnew), hothers m hactive]
    · rw [hcopies, if_pos rfl]
      split
      · exact hdest
      · rw [lookup_drop, if_neg hne.symm, hdest]
  | @raised s' hfails hothers hdest =>
    rcases hfails with hfails | hfails
    · refine ⟨_, _, Prog.bind_error hrun, fun m hactive _ => hothers m hactive, ?_⟩
      rw [hfails, if_neg Bool.false_ne_true, hdest]
    · cases hfails

/-- A promotion leaves the old table or the new one in the place of the active one, unless it loses it. -/
theorem promoteTable_spec {active new backup : String} {t n : VectorTable E} (hactive : s.lookup active = some t)
    (hnew : s.lookup new = some n) (hne : active ≠ new) (hbackup : backup ≠ active) (hbackup' : backup ≠ new) :
    ∃ r s', promoteTable active new backup faults s = (r, s') ∧
      (∀ m, m ≠ active → m ≠ new → m ≠ backup → s'.lookup m = s.lookup m) ∧
      (loses faults = true → s'.lookup active = none) ∧
      (loses faults = false → ∃ t', s'.lookup active = some t' ∧ (t'.records = t.records ∨ t'.records = n.records)) := by
  -- the two drops
  obtain ⟨s₁, hs₁, hothers₁⟩ : ∃ s₁, logged (dropTable .dropBackup backup) faults s = (.ok (), s₁) ∧
      ∀ m, m ≠ backup → s₁.lookup m = s.lookup m := by
    refine ⟨_, logged_drop _ _ _ _, fun m hm => ?_⟩
    split
    · rfl
    · rw [lookup_drop, if_neg (Ne.symm hm)]
  have hs₂ := logged_drop .dropActive active faults s₁
  rw [← hothers₁ active hbackup.symm] at hactive
  rw [← hothers₁ new hbackup'.symm] at hnew
  have hrest : promoteTable active new backup faults s =
      (renameTable .rename new active).handle (fun _ => copyBack active new) faults
        (if faults .dropActive then s₁ else s₁.drop active) :=
    (Prog.bind_ok hs₁).trans (Prog.bind_ok hs₂)
  cases hdrop : faults .dropActive with
  | true =>
    rw [hdrop, if_pos rfl] at hrest
    -- the active table is still there, so that the rename raises in any case
    have hrename : renameTable .rename new active faults s₁ = (.error (), s₁) := by
      refine storeOp_none ?_
      rw [hnew, Option.bind_some, if_pos (hasKey_of_lookup hactive)]
    obtain ⟨r, s', hrun, hothers, hend⟩ : ∃ r s', copyBack active new faults s₁ = (r, s') ∧ _ ∧ _ :=
      copyBack_spec hnew hne
    rw [hasKey_of_lookup hactive, hactive] at hend
    refine ⟨r, s', hrest.trans ((Prog.handle_error hrename).trans hrun), fun m ha hn hb => ?_, ?_, ?_⟩
    · rw [hothers m ha hn, hothers₁ m hb]
    · intro hloses
      rw [loses_kept hdrop, Bool.and_eq_true, Bool.not_eq_true', Bool.not_eq_true'] at hloses
      rw [hend, hloses.1, hloses.2, if_neg Bool.false_ne_true, if_neg Bool.false_ne_true]
    · intro hloses
      rw [loses_kept hdrop] at hloses
      cases hcopies : copies .fallback faults true with
      | true =>
        rw [hcopies, if_pos rfl] at hend
        exact ⟨_, hend, .inr rfl⟩
      | false =>
        rw [hcopies, Bool.not_false, Bool.true_and, Bool.not_eq_false'] at hloses
        rw [hcopies, if_neg Bool.false_ne_true, if_pos hloses] at hend
        exact ⟨t, hend, .inl rfl⟩
  | false =>
    rw [hdrop, if_neg Bool.false_ne_true] at hrest
    have hgone : (s₁.drop active).lookup active = none := by rw [lookup_drop, if_pos rfl]
    have hnew₂ : (s₁.drop active).lookup new = some n := by rw [lookup_drop, if_neg hne, hnew]
    cases hrename : faults .rename with
    | false =>
      have hrun : renameTable .rename new active faults (s₁.drop active) =
          (.ok (), ((s₁.drop active).drop new).insertOrIgnore ⟨active, n.records⟩) := by
        refine storeOp_some hrename ?_
        rw [hnew₂, Option.bind_some, if_neg (by rw [Table.hasKey_eq_false.2 hgone]; exact Bool.false_ne_true)]
      refine ⟨_, _, hrest.trans (Prog.handle_ok hrun), fun m ha hn hb => ?_, fun hloses => ?_, fun _ => ?_⟩
      · rw [Table.lookup_insertOrIgnore_of_ne (Ne.symm ha), lookup_drop, if_neg (Ne.symm hn), lookup_drop,
          if_neg (Ne.symm ha), hothers₁ m hb]
      · rw [loses_dropped hdrop, hrename] at hloses
        cases hloses
      · refine ⟨⟨active, n.records⟩, ?_, .inr rfl⟩
        rw [Table.lookup_insertOrIgnore, lookup_drop, if_neg hne.symm, hgone, Option.none_or]
        exact if_pos rfl
    | true =>
      obtain ⟨r, s', hrun, hothers, hend⟩ : ∃ r s', copyBack active new faults (s₁.drop active) = (r, s') ∧ _ ∧ _ :=
        copyBack_spec hnew₂ hne
      rw [Table.hasKey_eq_false.2 hgone, hgone, ite_self] at hend
      refine ⟨r, s', hrest.trans ((Prog.handle_error (storeOp_faulty hrename)).trans hrun), fun m ha hn hb => ?_, ?_, ?_⟩
      · rw [hothers m ha hn, lookup_drop, if_neg (Ne.symm ha), hothers₁ m hb]
      · intro hloses
        rw [loses_dropped hdrop, hrename, Bool.true_and, Bool.not_eq_true'] at hloses
        rw [hend, hloses, if_neg Bool.false_ne_true]
      · intro hloses
        rw [loses_dropped hdrop, hrename, Bool.true_and, Bool.not_eq_false'] at hloses
        rw [hloses, if_pos rfl] at hend
        exact ⟨_, hend, .inr rfl⟩

/-! ## One table -/

variable {env : VectorEnv E} {golden : List (E × String)} {threshold : ℚ}

theorem logged_dropExisting (list drop : AlignStep) (name : String) (faults : AlignStep → Bool) (s : VectorStore E) :
    ∃ s', logged (dropExisting list drop name) faults s = (.ok (), s') ∧ ∀ m, m ≠ name → s'.lookup m = s.lookup m := by
  rcases dropExisting_cases list drop name faults s with ⟨-, hraised⟩ | ⟨-, -, hdropped⟩
  · exact ⟨s, Prog.handle_error hraised, fun _ _ => rfl⟩
  · exact ⟨_, Prog.handle_ok hdropped, fun m hm => by rw [lookup_drop, if_neg (Ne.symm hm)]⟩

/-- A rollback touches the new table and the backup only. -/
theorem rollbackTable_spec (new backup : String) (faults : AlignStep → Bool) (s : VectorStore E) :
    ∃ s', rollbackTable new backup faults s = (.ok (), s') ∧
      ∀ m, m ≠ new → m ≠ backup → s'.lookup m = s.lookup m := by
  obtain ⟨s₁, hrun₁, hothers₁⟩ := logged_dropExisting .listNew .cleanNew new faults s
  obtain ⟨s₂, hrun₂, hothers₂⟩ := logged_dropExisting .listBackup .cleanBackup backup faults s₁
  exact ⟨s₂, (Prog.bind_ok hrun₁).trans hrun₂, fun m hn hb => by rw [hothers₂ m hb, hothers₁ m hn]⟩

/-- The table reaches its promotion: it is copied and transformed, and the golden set is found often enough. -/
def promotes (env : VectorEnv E) (golden : List (E × String)) (threshold : ℚ) (faults : AlignStep → Bool)
    (s : VectorStore E) (t : VectorTable E) : Bool :=
  copies .backup faults (s.hasKey (t.name ++ "_backup")) && copies .transform faults (s.hasKey (t.name ++ "_new")) &&
    (env.transformed t.records).any fun records =>
      (decide (golden = []) || !faults .verify) && decide (threshold ≤ env.recallAt5 faults records golden)

/-- The records of the table, as they were or transformed, with none lost. -/
def VectorEnv.Keeps (env : VectorEnv E) (t t' : VectorTable E) : Prop :=
  (t'.records = t.records ∨ env.transformed t.records = some t'.records) ∧
    t'.records.map VectorRecord.nodeId = t.records.map VectorRecord.nodeId

theorem transformed_ids {records records' : List (VectorRecord E)} (h : env.transformed records = some records') :
    records'.map VectorRecord.nodeId = records.map VectorRecord.nodeId := by
  unfold VectorEnv.transformed at h
  induction records generalizing records' with
  | nil =>
    cases h
    rfl
  | cons r rest ih =>
    rw [List.mapM_cons] at h
    cases hr : env.rotate r.embedding with
    | none =>
      rw [hr] at h
      cases h
    | some embedding =>
      rw [hr] at h
      cases hrest : rest.mapM fun r => (env.rotate r.embedding).map fun embedding => { r with embedding } with
      | none =>
        rw [hrest] at h
        cases h
      | some rest' =>
        rw [hrest] at h
        cases h
        rw [List.map_cons, List.map_cons, ih hrest]

theorem append_ne (name : String) {suffix : String} (h : suffix ≠ "") : name ++ suffix ≠ name := by
  intro hsame
  have hlength := congrArg String.length hsame
  rw [String.length_append] at hlength
  exact h (String.length_eq_zero_iff.1 (by omega))

theorem backup_ne_new (a b : String) : a ++ "_backup" ≠ b ++ "_new" := by
  intro hsame
  have hlast := congrArg (fun text : String => text.toList.getLast?) hsame
  simp only [String.toList_append, List.getLast?_append] at hlast
  rw [show "_backup".toList.getLast? = some 'p' from rfl, show "_new".toList.getLast? = some 'w' from rfl] at hlast
  cases hlast

theorem hasKey_congr {s s' : VectorStore E} (h : s'.lookup name = s.lookup name) : s'.hasKey name = s.hasKey name := by
  rw [Bool.eq_iff_iff, Table.hasKey_iff, Table.hasKey_iff, h]

theorem VectorEnv.Keeps.refl (t : VectorTable E) : env.Keeps t t := ⟨.inl rfl, rfl⟩

theorem VectorEnv.Keeps.of_records {t t' : VectorTable E} {records : List (VectorRecord E)}
    (h : env.transformed t.records = some records) (h' : t'.records = t.records ∨ t'.records = records) :
    env.Keeps t t' := by
  rcases h' with h' | h'
  · exact ⟨.inl h', by rw [h']⟩
  · exact ⟨.inr (by rw [h', h]), by rw [h', transformed_ids h]⟩

/-- What the alignment of one table leaves in its place. -/
structure Aligned (env : VectorEnv E) (golden : List (E × String)) (threshold : ℚ) (faults : AlignStep → Bool)
    (s : VectorStore E) (t : VectorTable E) (s' : VectorStore E) : Prop where
  lost : (promotes env golden threshold faults s t && loses faults) = true → s'.lookup t.name = none
  kept : (promotes env golden threshold faults s t && loses faults) = false →
    ∃ t', s'.lookup t.name = some t' ∧ env.Keeps t t'

theorem Aligned.of_not_promoted {s' : VectorStore E} {t : VectorTable E}
    (h : promotes env golden threshold faults s t = false) (hkept : s'.lookup t.name = some t) :
    Aligned env golden threshold faults s t s' :=
  ⟨fun hlost => (by rw [h] at hlost; cases hlost), fun _ => ⟨t, hkept, .refl t⟩⟩

theorem Aligned.congr {s' s'' : VectorStore E} {t : VectorTable E} (h : Aligned env golden threshold faults s t s')
    (hsame : s''.lookup t.name = s'.lookup t.name) : Aligned env golden threshold faults s t s'' :=
  ⟨fun hlost => hsame.trans (h.lost hlost), fun hkept => by rw [hsame]; exact h.kept hkept⟩

variable (env golden faults) in
theorem verifyRecall_cases {new : VectorTable E} (h : s.lookup name = some new) :
    ((decide (golden = []) || !faults .verify) = false ∧ verifyRecall env name golden faults s = (.error (), s)) ∨
    (decide (golden = []) || !faults .verify) = true ∧
      verifyRecall env name golden faults s = (.ok (env.recallAt5 faults new.records golden), s) := by
  unfold verifyRecall
  by_cases hempty : golden = []
  · refine .inr ⟨by rw [decide_eq_true hempty, Bool.true_or], ?_⟩
    rw [if_pos hempty, VectorEnv.recallAt5, if_pos hempty]
  · rw [if_neg hempty, decide_eq_false hempty, Bool.false_or, h]
    cases hfault : faults .verify with
    | true => exact .inl ⟨rfl, rfl⟩
    | false => exact .inr ⟨rfl, rfl⟩

theorem alignBody_spec {t : VectorTable E} (h : s.lookup t.name = some t) :
    ∃ r s', alignBody env golden threshold t.name faults s = (r, s') ∧
      (∀ m, m ≠ t.name → m ≠ t.name ++ "_new" → m ≠ t.name ++ "_backup" → s'.lookup m = s.lookup m) ∧
      Aligned env golden threshold faults s t s' := by
  have hbackup : t.name ++ "_backup" ≠ t.name := append_ne t.name (by decide)
  have hnew : t.name ++ "_new" ≠ t.name := append_ne t.name (by decide)
  have hcopy : Rewritten .backup some faults s t (t.name ++ "_backup")
      (copyTable .backup t.name (t.name ++ "_backup") faults s) := rewriteTable_spec h hbackup
  generalize hrun : copyTable .backup t.name (t.name ++ "_backup") faults s = run at hcopy
  cases hcopy with
  | @raised s₁ hfails hothers hdest =>
    refine ⟨_, s₁, Prog.bind_error hrun, fun m _ _ hb => hothers m hb, .of_not_promoted ?_ ?_⟩
    · rcases hfails with hfails | hfails
      · unfold promotes
        rw [hfails, Bool.false_and, Bool.false_and]
      · cases hfails
    · rw [hothers _ hbackup.symm, h]
  | @done s₁ copied hcopied hrecords hothers₁ hdest₁ =>
    have h₁ : s₁.lookup t.name = some t := by rw [hothers₁ _ hbackup.symm, h]
    have hstale : s₁.hasKey (t.name ++ "_new") = s.hasKey (t.name ++ "_new") :=
      hasKey_congr (hothers₁ _ (backup_ne_new _ _).symm)
    have htransform : Rewritten .transform env.transformed faults s₁ t (t.name ++ "_new")
        (transformTable env t.name (t.name ++ "_new") faults s₁) := rewriteTable_spec h₁ hnew
    generalize hrun₂ : transformTable env t.name (t.name ++ "_new") faults s₁ = run₂ at htransform
    cases htransform with
    | @raised s₂ hfails hothers hdest =>
      refine ⟨_, s₂, (Prog.bind_ok hrun).trans (Prog.bind_error hrun₂),
        fun m _ hn hb => (hothers m hn).trans (hothers₁ m hb), .of_not_promoted ?_ ?_⟩
      · unfold promotes
        rw [← hstale]
        rcases hfails with hfails | hfails
        · rw [hfails, Bool.and_false, Bool.false_and]
        · rw [hfails, Option.any_none, Bool.and_false]
      · rw [hothers _ hnew.symm, h₁]
    | @done s₂ records htransformed hrecords₂ hothers₂ hdest₂ =>
      have h₂ : s₂.lookup t.name = some t := by rw [hothers₂ _ hnew.symm, h₁]
      have hpromotes : promotes env golden threshold faults s t =
          ((decide (golden = []) || !faults .verify) && decide (threshold ≤ env.recallAt5 faults records golden)) := by
        unfold promotes
        rw [← hstale, hcopied, htransformed, hrecords₂, Option.any_some, Bool.true_and, Bool.true_and]
      have hothers : ∀ m, m ≠ t.name ++ "_new" → m ≠ t.name ++ "_backup" → s₂.lookup m = s.lookup m :=
        fun m hn hb => (hothers₂ m hn).trans (hothers₁ m hb)
      rcases verifyRecall_cases faults env golden hdest₂ with
        ⟨hverify, hraised⟩ | ⟨hverify, hrecall⟩
      · refine ⟨_, s₂, (Prog.bind_ok hrun).trans ((Prog.bind_ok hrun₂).trans (Prog.bind_error hraised)),
          fun m _ hn hb => hothers m hn hb, .of_not_promoted ?_ h₂⟩
        rw [hpromotes, hverify, Bool.false_and]
      rw [hverify, Bool.true_and] at hpromotes
      by_cases hthreshold : threshold ≤ env.recallAt5 faults records golden
      · rw [decide_eq_true hthreshold] at hpromotes
        obtain ⟨r, s₃, hpromote, hothers₃, hlost, hkept⟩ :=
          promoteTable_spec h₂ hdest₂ hnew.symm hbackup (backup_ne_new _ _)
        have haligned : Aligned env golden threshold faults s t s₃ := by
          refine ⟨fun h => hlost ?_, fun h => ?_⟩
          · rwa [hpromotes, Bool.true_and] at h
          · rw [hpromotes, Bool.true_and] at h
            obtain ⟨t', ht', hrecords'⟩ := hkept h
            exact ⟨t', ht', .of_records hrecords₂ hrecords'⟩
        have hbody : alignBody env golden threshold t.name faults s = _ :=
          (Prog.bind_ok hrun).trans ((Prog.bind_ok hrun₂).trans ((Prog.bind_ok hrecall).trans
            (congrFun (congrFun (if_pos hthreshold) faults) s₂)))
        have hframe : ∀ m, m ≠ t.name → m ≠ t.name ++ "_new" → m ≠ t.name ++ "_backup" → s₃.lookup m = s.lookup m :=
          fun m ha hn hb => (hothers₃ m ha hn hb).trans (hothers m hn hb)
        cases r with
        | ok u => exact ⟨_, s₃, hbody.trans (Prog.bind_ok hpromote), hframe, haligned⟩
        | error e => exact ⟨_, s₃, hbody.trans (Prog.bind_error hpromote), hframe, haligned⟩
      · rw [decide_eq_false hthreshold] at hpromotes
        obtain ⟨s₃, hrollback, hothers₃⟩ := rollbackTable_spec (t.name ++ "_new") (t.name ++ "_backup") faults s₂
        refine ⟨_, s₃, (Prog.bind_ok hrun).trans ((Prog.bind_ok hrun₂).trans ((Prog.bind_ok hrecall).trans
            ((congrFun (congrFun (if_neg hthreshold) faults) s₂).trans (Prog.bind_ok hrollback)))),
          fun m _ hn hb => (hothers₃ m hn hb).trans (hothers m hn hb), .of_not_promoted hpromotes ?_⟩
        rw [hothers₃ _ hnew.symm hbackup.symm, h₂]

/-- The error path touches the new table and the backup only. -/
theorem alignTable_spec {t : VectorTable E} (h : s.lookup t.name = some t) :
    ∃ b s', alignTable env golden threshold t.name faults s = (.ok b, s') ∧
      (∀ m, m ≠ t.name → m ≠ t.name ++ "_new" → m ≠ t.name ++ "_backup" → s'.lookup m = s.lookup m) ∧
      Aligned env golden threshold faults s t s' := by
  obtain ⟨r, s₁, hrun, hothers, haligned⟩ : ∃ r s', alignBody env golden threshold t.name faults s = (r, s') ∧ _ ∧ _ :=
    alignBody_spec h
  cases r with
  | ok b => exact ⟨b, s₁, Prog.handle_ok hrun, hothers, haligned⟩
  | error e =>
    obtain ⟨s₂, hrollback, hothers₂⟩ := rollbackTable_spec (t.name ++ "_new") (t.name ++ "_backup") faults s₁
    have hlogged : logged (rollbackTable (t.name ++ "_new") (t.name ++ "_backup")) faults s₁ = (.ok (), s₂) :=
      Prog.handle_ok hrollback
    refine ⟨false, s₂, (Prog.handle_error hrun).trans (Prog.bind_ok hlogged),
      fun m ha hn hb => (hothers₂ m hn hb).trans (hothers m ha hn hb), haligned.congr ?_⟩
    exact hothers₂ _ (append_ne t.name (by decide)).symm (append_ne t.name (by decide)).symm

/-! ## All tables -/

theorem hasSuffix_append (name suffix : String) : hasSuffix (name ++ suffix) suffix = true := by
  unfold hasSuffix
  rw [String.toList_append]
  exact List.isSuffixOf_iff_suffix.2 (List.suffix_append _ _)

/-- An active table is never the backup or the new table of another. -/
theorem isActive_ne {name : String} (h : isActive name = true) (other : String) :
    name ≠ other ++ "_new" ∧ name ≠ other ++ "_backup" := by
  unfold isActive at h
  rw [Bool.and_eq_true, Bool.and_eq_true, Bool.not_eq_true', Bool.not_eq_true'] at h
  constructor
  · rintro rfl
    rw [hasSuffix_append] at h
    cases h.2
  · rintro rfl
    rw [hasSuffix_append] at h
    cases h.1.2

theorem append_right_injective (suffix : String) {a b : String} (h : a ++ suffix = b ++ suffix) : a = b := by
  have hlist := congrArg String.toList h
  rw [String.toList_append, String.toList_append] at hlist
  exact String.toList_inj.1 (List.append_cancel_right hlist)

theorem promotes_congr {s s' : VectorStore E} {t : VectorTable E}
    (hbackup : s'.lookup (t.name ++ "_backup") = s.lookup (t.name ++ "_backup"))
    (hnew : s'.lookup (t.name ++ "_new") = s.lookup (t.name ++ "_new")) :
    promotes env golden threshold faults s' t = promotes env golden threshold faults s t := by
  unfold promotes
  rw [hasKey_congr hbackup, hasKey_congr hnew]

variable {given : AlignFaults}

/-- What the loop leaves of one of its tables: the other ones touch nothing of it. -/
theorem alignTables_spec : ∀ {names : List String} {s : VectorStore E}, names.Nodup →
    (∀ name ∈ names, isActive name = true ∧ (s.lookup name).isSome) →
    (∀ m, (∀ name ∈ names, m ≠ name ∧ m ≠ name ++ "_new" ∧ m ≠ name ++ "_backup") →
      (alignTables env golden threshold given names s).1.lookup m = s.lookup m) ∧
    ∀ t, t.name ∈ names → s.lookup t.name = some t →
      Aligned env golden threshold (given.table t.name) s t (alignTables env golden threshold given names s).1
  | [], s, _, _ => ⟨fun _ _ => rfl, fun t ht => absurd ht List.not_mem_nil⟩
  | active :: rest, s, hnodup, hactive => by
    obtain ⟨hnotin, hrest⟩ := List.nodup_cons.1 hnodup
    obtain ⟨hname, hsome⟩ := hactive active List.mem_cons_self
    obtain ⟨t₀, ht₀⟩ := Option.isSome_iff_exists.1 hsome
    obtain rfl : t₀.name = active := Table.lookup_key ht₀
    obtain ⟨b, s₁, hrun, hothers, haligned⟩ :
        ∃ b s', alignTable env golden threshold t₀.name (given.table t₀.name) s = (.ok b, s') ∧ _ ∧ _ :=
      alignTable_spec ht₀
    have hstep : (alignTables env golden threshold given (t₀.name :: rest) s).1 =
        (alignTables env golden threshold given rest s₁).1 := by
      rw [alignTables, hrun]
    have hkept : ∀ name ∈ rest, s₁.lookup name = s.lookup name := by
      intro name hmem
      obtain ⟨hnew, hbackup⟩ := isActive_ne (hactive name (List.mem_cons_of_mem _ hmem)).1 t₀.name
      exact hothers name (fun hsame => hnotin (hsame ▸ hmem)) hnew hbackup
    obtain ⟨hframe, hspec⟩ := alignTables_spec hrest fun name hmem =>
      ⟨(hactive name (List.mem_cons_of_mem _ hmem)).1, by
        rw [hkept name hmem]
        exact (hactive name (List.mem_cons_of_mem _ hmem)).2⟩
    rw [hstep]
    refine ⟨fun m hm => ?_, fun t ht hlookup => ?_⟩
    · rw [hframe m fun name hmem => hm name (List.mem_cons_of_mem _ hmem)]
      obtain ⟨ha, hn, hb⟩ := hm t₀.name List.mem_cons_self
      exact hothers m ha hn hb
    · rcases List.mem_cons.1 ht with hsame | hmem
      · -- the table that was just aligned, which the rest leaves alone
        obtain rfl : t = t₀ := Option.some.inj ((hsame ▸ hlookup).symm.trans ht₀)
        refine haligned.congr (hframe t.name fun name hmem => ?_)
        obtain ⟨hnew, hbackup⟩ := isActive_ne hname name
        exact ⟨fun hname => hnotin (hname ▸ hmem), hnew, hbackup⟩
      · have hne : t.name ≠ t₀.name := fun hname => hnotin (hname ▸ hmem)
        have hbackup : s₁.lookup (t.name ++ "_backup") = s.lookup (t.name ++ "_backup") :=
          hothers _ (isActive_ne hname t.name).2.symm (backup_ne_new _ _)
            fun hsame => hne (append_right_injective _ hsame)
        have hnew : s₁.lookup (t.name ++ "_new") = s.lookup (t.name ++ "_new") :=
          hothers _ (isActive_ne hname t.name).1.symm (fun hsame => hne (append_right_injective _ hsame))
            (backup_ne_new _ _).symm
        obtain ⟨hlost, hkept'⟩ := hspec t hmem (by rw [hkept _ hmem, hlookup])
        rw [promotes_congr hbackup hnew] at hlost hkept'
        exact ⟨hlost, hkept'⟩

/-! ## The claim -/

/-- Every active table exists with its records as they were, or with all of them transformed. -/
def VectorEnv.Preserves (env : VectorEnv E) (s s' : VectorStore E) : Prop :=
  ∀ t ∈ s.rows, isActive t.name = true → ∃ t', s'.lookup t.name = some t' ∧ env.Keeps t t'

/-- A call that returns has preserved the active tables exactly when none of them reached a promotion that loses it. -/
theorem alignment_preserves_iff (env : VectorEnv E) (golden : List (E × String)) (threshold : ℚ) (given : AlignFaults)
    (s : VectorStore E) :
    (∀ s' succeeded, applyProcrustesAndSwitch env golden threshold given s = some (s', succeeded) →
      env.Preserves s s') ↔
    (given.listing = false → ∀ t ∈ s.rows, isActive t.name = true →
      (promotes env golden threshold (given.table t.name) s t && loses (given.table t.name)) = false) := by
  have hmem {t : VectorTable E} (ht : t ∈ s.rows) (hactive : isActive t.name = true) : t.name ∈ activeTables s :=
    List.mem_filter.2 ⟨List.mem_map_of_mem ht, hactive⟩
  have hspec : ∀ t, t.name ∈ activeTables s → s.lookup t.name = some t → Aligned env golden threshold
      (given.table t.name) s t (alignTables env golden threshold given (activeTables s) s).1 := by
    refine (alignTables_spec (s.unique.filter _) fun name hname => ?_).2
    obtain ⟨hname, hactive⟩ := List.mem_filter.1 hname
    exact ⟨hactive, Table.hasKey_iff.1 (mem_names.1 hname)⟩
  unfold applyProcrustesAndSwitch
  cases given.listing with
  | true => exact ⟨fun _ h => (by cases h), fun _ _ _ h => (by cases h)⟩
  | false =>
    rw [if_neg Bool.false_ne_true]
    split
    next hnone =>
      refine ⟨fun _ _ t ht hactive => ?_, fun _ s' succeeded h t ht hactive => ?_⟩
      · exact absurd (hnone ▸ hmem ht hactive) List.not_mem_nil
      · exact absurd (hnone ▸ hmem ht hactive) List.not_mem_nil
    · constructor
      · intro h _ t ht hactive
        obtain ⟨t', ht', -⟩ := h _ _ rfl t ht hactive
        rw [← Bool.not_eq_true]
        intro hloses
        rw [(hspec t (hmem ht hactive) (Table.lookup_of_mem ht)).lost hloses] at ht'
        cases ht'
      · rintro h s' succeeded heq t ht hactive
        obtain rfl := congrArg Prod.fst (Option.some.inj heq)
        exact (hspec t (hmem ht hactive) (Table.lookup_of_mem ht)).kept (h rfl t ht hactive)

/-! ## A call that meets the defect -/

/-- Embeddings without content, in which every search finds the one record. -/
def sampleVectors : VectorEnv Unit := ⟨some, fun records _ => some (records.map VectorRecord.nodeId)⟩

def sampleStore : VectorStore Unit := ⟨[⟨"mesa_vectors_8", [⟨"node", "agent", (), none, "now", none⟩]⟩], by decide⟩

/-- The store does not support renames, and the disk is full when the copy is written. -/
def fullDisk : AlignFaults :=
  ⟨false, fun _ step => decide (step = .rename ∨ step = .fallback .creating)⟩

theorem alignment_loses_table :
    (applyProcrustesAndSwitch sampleVectors [((), "node")] 0 fullDisk sampleStore).map (fun r => (r.1.rows, r.2)) =
      some ([], false) ∧
    ¬ ∀ s' succeeded, applyProcrustesAndSwitch sampleVectors [((), "node")] 0 fullDisk sampleStore =
      some (s', succeeded) → sampleVectors.Preserves sampleStore s' := by
  have hrun : (applyProcrustesAndSwitch sampleVectors [((), "node")] 0 fullDisk sampleStore).map
      (fun r => (r.1.rows, r.2)) = some ([], false) := by
    decide +kernel
  refine ⟨hrun, fun h => ?_⟩
  obtain ⟨⟨s', succeeded⟩, hcall, hrows⟩ := Option.map_eq_some_iff.1 hrun
  obtain ⟨t', ht', -⟩ := h s' succeeded hcall _ List.mem_cons_self (by decide)
  have hempty : t' ∈ s'.rows := Table.lookup_mem ht'
  rw [(Prod.mk.inj hrows).1] at hempty
  cases hempty

end Mesa.Vectors
