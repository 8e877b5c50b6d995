import ShaderEffect.Proofs.Report

/-!
# Paths of assets

The name of an asset is the name of the effect and that of the method, with an underscore between
them. Where there are more underscores, two effects may meet in one name. Main statement: the paths
of a report are different exactly if no two of its effects meet in that way, and then every asset
is found under its path.
-/

namespace ShaderEffect

/-! ## Names with underscores -/

/-- Two ways to split a text at an underscore: they are the same, or one of them splits at a later
underscore. -/
def SplitsMeet (front rear front' rear' : String) : Prop :=
  (front = front' ∧ rear = rear') ∨
    (∃ middle, front' = front ++ "_" ++ middle ∧ rear = middle ++ "_" ++ rear') ∨
    ∃ middle, front = front' ++ "_" ++ middle ∧ rear' = middle ++ "_" ++ rear

/-- What stands between two underscores that a text is split at. -/
theorem exists_middle {front rear front' rear' : String} {between : List Char}
    (hf : front'.toList = front.toList ++ between)
    (hr : '_' :: rear.toList = between ++ '_' :: rear'.toList) :
    (front = front' ∧ rear = rear') ∨
      ∃ middle, front' = front ++ "_" ++ middle ∧ rear = middle ++ "_" ++ rear' := by
  cases between with
  | nil =>
      refine .inl ⟨?_, ?_⟩
      · simpa [String.toList_inj] using hf.symm
      · simpa [String.toList_inj] using hr
  | cons c middle =>
      rw [List.cons_append, List.cons.injEq] at hr
      obtain ⟨rfl, hr⟩ := hr
      refine .inr ⟨String.ofList middle, ?_, ?_⟩
      · simp [← String.toList_inj, hf]
      · simp [← String.toList_inj, hr]

theorem splitsMeet_iff {front rear front' rear' : String} :
    SplitsMeet front rear front' rear' ↔ front ++ "_" ++ rear = front' ++ "_" ++ rear' := by
  constructor
  · rintro (⟨rfl, rfl⟩ | ⟨middle, rfl, rfl⟩ | ⟨middle, rfl, rfl⟩)
    · rfl
    · simp only [String.append_assoc]
    · simp only [String.append_assoc]
  · intro h
    have hlist : front.toList ++ '_' :: rear.toList = front'.toList ++ '_' :: rear'.toList := by
      simpa using congrArg String.toList h
    rcases List.append_eq_append_iff.mp hlist with ⟨between, hf, hr⟩ | ⟨between, hf, hr⟩
    · rcases exists_middle hf hr with hsame | hlater
      · exact .inl hsame
      · exact .inr (.inl hlater)
    · rcases exists_middle hf hr with ⟨hfront, hrear⟩ | hlater
      · exact .inl ⟨hfront.symm, hrear.symm⟩
      · exact .inr (.inr hlater)

/-- Names that differ only meet if both sides have more underscores. -/
theorem SplitsMeet.underscores {start front rear front' rear' : String}
    (h : SplitsMeet (start ++ front) rear (start ++ front') rear') (hne : front ≠ front') :
    ('_' ∈ front.toList ∨ '_' ∈ front'.toList) ∧ ('_' ∈ rear.toList ∨ '_' ∈ rear'.toList) := by
  rcases h with ⟨hf, -⟩ | ⟨middle, hf, rfl⟩ | ⟨middle, hf, rfl⟩
  · rw [String.append_right_inj] at hf
    exact absurd hf hne
  · rw [String.append_assoc, String.append_assoc, String.append_right_inj] at hf
    subst hf
    simp
  · rw [String.append_assoc, String.append_assoc, String.append_right_inj] at hf
    subst hf
    simp

/-! ## Paths -/

/-- How the file name of an asset ends. -/
def Stage.fileEnding (stage : Stage) : String :=
  "." ++ stage.fileSuffix ++ ".bin"

theorem isRooted_append_underscore (name rest : String) :
    isRooted (name ++ ("_" ++ rest)) = isRooted name := by
  cases hn : name.toList with
  | nil => simp [isRooted, hn]
  | cons c chars => simp [isRooted, hn]

/-- The underscore and all that follows it stands after the path that the name of the effect has. -/
theorem joinPath_assetFileName (directory effect method : String) (stage : Stage) :
    joinPath directory (assetFileName effect method stage) =
      joinPath directory effect ++ "_" ++ method ++ stage.fileEnding := by
  have hname : assetFileName effect method stage =
      effect ++ ("_" ++ (method ++ stage.fileEnding)) := by
    simp [assetFileName, Stage.fileEnding, toString, String.append_assoc]
  rw [hname]
  unfold joinPath
  rw [isRooted_append_underscore]
  split
  · simp only [String.append_assoc]
  · split
    · simp only [String.append_assoc]
    · simp only [String.append_assoc]

/-- Two assets have the same path exactly if they are for the same stage and their names meet. -/
theorem joinPath_assetFileName_inj {directory effect method effect' method' : String}
    {stage stage' : Stage} :
    joinPath directory (assetFileName effect method stage) =
        joinPath directory (assetFileName effect' method' stage') ↔
      stage = stage' ∧
        SplitsMeet (joinPath directory effect) method (joinPath directory effect') method' := by
  rw [joinPath_assetFileName, joinPath_assetFileName, splitsMeet_iff]
  constructor
  · intro h
    have hlength : stage.fileEnding.toList.length = stage'.fileEnding.toList.length := by
      cases stage <;> cases stage' <;> decide
    have hlist := congrArg String.toList h
    rw [String.toList_append, String.toList_append (s := _ ++ method')] at hlist
    obtain ⟨hfront, hending⟩ := List.append_inj' hlist hlength
    refine ⟨?_, String.toList_inj.mp hfront⟩
    revert hending
    cases stage <;> cases stage' <;> decide
  · rintro ⟨rfl, h⟩
    rw [h]

/-! ## Paths of a report -/

/-- The paths of the assets of a report, effect by effect. -/
def PackReport.paths (report : PackReport) : List String :=
  report.packed.flatMap fun effect => effect.shaders.map (·.path)

/-- No asset of one effect has the path of an asset of the other, by the names alone. -/
def PackedEffect.Apart (directory : String) (first second : PackedEffect) : Prop :=
  ∀ shader ∈ first.shaders, ∀ other ∈ second.shaders, shader.asset.stage = other.asset.stage →
    ¬ SplitsMeet (joinPath directory first.name) shader.method (joinPath directory second.name)
      other.method

/-- The methods whose assets are written come in their order, up to the first failure. -/
theorem methods_planWrites (effect : Effect) (options : PackOptions)
    (methods : List ShaderMethod) :
    (effect.planWrites options methods).1.map (·.shader.method) <+: methods.map (·.name) := by
  induction methods with
  | nil => exact List.prefix_rfl
  | cons method rest ih =>
      simp only [Effect.planWrites]
      cases hw : effect.planWrite options method with
      | error error => exact List.nil_prefix
      | ok write =>
          obtain ⟨-, -, hname, -⟩ := planWrite_eq_ok hw
          rw [List.map_cons, List.map_cons, hname]
          exact (List.prefix_cons_inj _).mpr ih

theorem TypeDecl.assetPaths_of_not_isPackable {decl : TypeDecl} {options : PackOptions}
    (h : decl.isPackable = false) : decl.assetPaths options = [] := by
  obtain ⟨-, ⟨-, hplan⟩ | ⟨-, -, hplan⟩ | ⟨effect, hb, hv, -⟩⟩ := decl.packPlan_eq options
  · simp [assetPaths, hplan, PackPlan.writes]
  · simp [assetPaths, hplan, PackPlan.writes]
  · simp [isPackable, hb, hv] at h

namespace TypeDecl.Becomes

variable {decl : TypeDecl} {options : PackOptions} {effect : PackedEffect}

theorem path_eq (h : decl.Becomes options (.packed effect)) {shader : PackedShader}
    (hs : shader ∈ effect.shaders) :
    shader.path = joinPath options.outputDirectory
      (assetFileName effect.name shader.method shader.asset.stage) := by
  cases h with
  | packed hb hv hw =>
      obtain ⟨write, hwrite, rfl⟩ := List.mem_map.mp hs
      obtain ⟨method, -, hplan⟩ := mem_planWrites (by rw [hw]; exact hwrite)
      obtain ⟨hasset, -, hname, hpath⟩ := planWrite_eq_ok hplan
      rw [hpath, hname, (asset_eq_ok hasset).1]

theorem nodup_methods (h : decl.Becomes options (.packed effect)) :
    (effect.shaders.map (·.method)).Nodup := by
  cases h with
  | @packed built writes hb hv hw =>
      have hprefix := methods_planWrites built options built.methods
      rw [hw] at hprefix
      rw [List.map_map]
      exact (Effect.nodup_methods hb).sublist hprefix.sublist

/-- The assets of one effect have different paths. -/
theorem nodup_paths (h : decl.Becomes options (.packed effect)) :
    (effect.shaders.map (·.path)).Nodup := by
  have hmethods := h.nodup_methods
  rw [List.Nodup, List.pairwise_map] at hmethods ⊢
  refine hmethods.imp_of_mem fun hs ho hne hpath => hne ?_
  rw [h.path_eq hs, h.path_eq ho, joinPath_assetFileName_inj, splitsMeet_iff,
    String.append_right_inj] at hpath
  exact hpath.2

/-- Two effects share no path exactly if their names and those of their methods do not meet. -/
theorem disjoint_paths_iff {decl' : TypeDecl} {effect' : PackedEffect}
    (h : decl.Becomes options (.packed effect)) (h' : decl'.Becomes options (.packed effect')) :
    List.Disjoint (effect.shaders.map (·.path)) (effect'.shaders.map (·.path)) ↔
      effect.Apart options.outputDirectory effect' := by
  constructor
  · intro hd shader hs other ho hstage hmeet
    have hpath : shader.path = other.path := by
      rw [h.path_eq hs, h'.path_eq ho, joinPath_assetFileName_inj]
      exact ⟨hstage, hmeet⟩
    exact hd (List.mem_map_of_mem hs) (hpath ▸ List.mem_map_of_mem ho)
  · intro hapart path hp hp'
    obtain ⟨shader, hs, rfl⟩ := List.mem_map.mp hp
    obtain ⟨other, ho, hpath⟩ := List.mem_map.mp hp'
    rw [h.path_eq hs, h'.path_eq ho, eq_comm, joinPath_assetFileName_inj] at hpath
    exact hapart shader hs other ho hpath.1 hpath.2

/-- The assets of a packed effect are those that were planned. -/
theorem shaders_eq (h : decl.Becomes options (.packed effect)) :
    effect.shaders = (decl.packPlan options).2.writes.map (·.shader) := by
  obtain ⟨-, hplan⟩ := decl.packPlan_eq options
  have hp := h.isPackable
  rcases hplan with ⟨hc, -⟩ | ⟨-, hnot, -⟩ | ⟨built, hb, hv, hplan⟩
  · simp [TypeDecl.isEffectCandidate_of_isPackable hp] at hc
  · simp [hp] at hnot
  · cases h with
    | packed hb' hv' hw =>
        obtain rfl := Except.ok.inj (hb.symm.trans hb')
        rw [hplan, hw]
        rfl

end TypeDecl.Becomes

namespace PackReport.Covers

variable {report : PackReport} {options : PackOptions} {decls : List TypeDecl}

theorem exists_decl (h : report.Covers options decls) {effect : PackedEffect}
    (he : effect ∈ report.packed) :
    ∃ decl ∈ decls, decl.Becomes options (.packed effect) := by
  obtain ⟨decl, hd, hbecomes⟩ := forall₂_mem_right h.packed he
  exact ⟨decl, (List.mem_filter.mp hd).1, hbecomes⟩

/-- The paths of a report are different exactly if its effects are apart. -/
theorem nodup_paths_iff (h : report.Covers options decls) :
    report.paths.Nodup ↔ report.packed.Pairwise (PackedEffect.Apart options.outputDirectory) := by
  have hnodup : ∀ effect ∈ report.packed, (effect.shaders.map (·.path)).Nodup := by
    intro effect he
    obtain ⟨decl, -, hbecomes⟩ := h.exists_decl he
    exact hbecomes.nodup_paths
  rw [PackReport.paths, List.nodup_flatMap, and_iff_right hnodup]
  apply List.Pairwise.iff_of_mem
  intro first second hf hs
  obtain ⟨decl, -, hfirst⟩ := h.exists_decl hf
  obtain ⟨decl', -, hsecond⟩ := h.exists_decl hs
  exact hfirst.disjoint_paths_iff hsecond

theorem nodup_names (h : report.Covers options decls) (hn : (decls.map (·.name)).Nodup) :
    (report.packed.map (·.name)).Nodup := by
  rw [TypeDecl.map_name_of_becomes h.packed]
  exact hn.sublist (List.filter_sublist.map _)

/-- Effects with different names are apart where either they or their methods do without
underscores. -/
theorem pairwise_apart (h : report.Covers options decls) (hn : (decls.map (·.name)).Nodup)
    (hr : ∀ effect ∈ report.packed, isRooted effect.name = false)
    (hu : (∀ effect ∈ report.packed, '_' ∉ effect.name.toList) ∨
      ∀ effect ∈ report.packed, ∀ shader ∈ effect.shaders, '_' ∉ shader.method.toList) :
    report.packed.Pairwise (PackedEffect.Apart options.outputDirectory) := by
  obtain ⟨front, -, hjoin⟩ := exists_joinPath options.outputDirectory
  have hnames := h.nodup_names hn
  rw [List.Nodup, List.pairwise_map] at hnames
  refine hnames.imp_of_mem fun hf hs hne => ?_
  intro shader hshader other hother _ hmeet
  rw [hjoin _ (hr _ hf), hjoin _ (hr _ hs)] at hmeet
  obtain ⟨heffect, hmethod⟩ := hmeet.underscores hne
  rcases hu with hu | hu
  · rcases heffect with hfirst | hsecond
    · exact hu _ hf hfirst
    · exact hu _ hs hsecond
  · rcases hmethod with hfirst | hsecond
    · exact hu _ hf _ hshader hfirst
    · exact hu _ hs _ hother hsecond

/-- The paths of a report are those of its declarations. -/
theorem paths_eq (h : report.Covers options decls) :
    report.paths = decls.flatMap (·.assetPaths options) := by
  have hpackable : decls.flatMap (·.assetPaths options) =
      (decls.filter TypeDecl.isPackable).flatMap (·.assetPaths options) := by
    clear h
    induction decls with
    | nil => rfl
    | cons decl rest ih =>
        cases hp : decl.isPackable with
        | false => simp [hp, ih, TypeDecl.assetPaths_of_not_isPackable hp]
        | true => simp [hp, ih]
  have hpacked := h.packed
  rw [hpackable, PackReport.paths]
  generalize decls.filter TypeDecl.isPackable = packable, report.packed = packed at hpacked
  induction hpacked with
  | nil => rfl
  | cons hfirst _ ih =>
      rw [List.flatMap_cons, List.flatMap_cons, ih, hfirst.shaders_eq, TypeDecl.assetPaths,
        List.map_map]
      rfl

end PackReport.Covers

/-! ## Files -/

namespace FileTree

/-- What is at a place that is written to once. -/
theorem overwrite_of_mem {writes : List (List String × List UInt8)}
    (hn : (writes.map (·.1)).Nodup) {place : List String} {content : List UInt8}
    (h : (place, content) ∈ writes) (nodes : List String → Option FileNode) :
    overwrite nodes writes place = some (.file content) := by
  induction writes generalizing nodes with
  | nil => cases h
  | cons write rest ih =>
      rw [List.map_cons, List.nodup_cons] at hn
      obtain ⟨hnew, hn⟩ := hn
      rw [overwrite_cons]
      rcases List.mem_cons.mp h with rfl | h
      · have hother : ∀ other ∈ rest, other.1 ≠ place := by
          intro other ho heq
          exact hnew (List.mem_map.mpr ⟨other, ho, heq⟩)
        rw [overwrite_update hother, Function.update_self]
      · exact ih hn h _

/-- Some assets have been written to a tree, one after the other. -/
structure Wrote (before after : FileTree) (writes : List PlannedWrite) : Prop where
  targets : ∀ write ∈ writes, (before.target? write.shader.path).isSome
  target?_eq : after.target? = before.target?
  node?_eq : after.node? = overwrite before.node? (writes.map (·.placed before.target?))

namespace Wrote

variable {before between after : FileTree} {writes later : List PlannedWrite}

theorem refl (tree : FileTree) : Wrote tree tree [] :=
  ⟨by simp, rfl, rfl⟩

theorem trans (h : Wrote before between writes) (h' : Wrote between after later) :
    Wrote before after (writes ++ later) := by
  refine ⟨?_, h'.target?_eq.trans h.target?_eq, ?_⟩
  · intro write hw
    rcases List.mem_append.mp hw with hw | hw
    · exact h.targets write hw
    · exact h.target?_eq ▸ h'.targets write hw
  · rw [h'.node?_eq, h.node?_eq, h.target?_eq, List.map_append, overwrite_append]

theorem single {write : PlannedWrite}
    (h : before.write write.shader.path write.content = .ok after) :
    Wrote before after [write] := by
  obtain ⟨place, ht, rfl⟩ := exists_target? h
  have hd := (target?_eq_some.mp ht).2
  refine ⟨by simp [ht], target?_insert hd _, ?_⟩
  rw [node?_insert hd]
  simp [PlannedWrite.placed, ht, overwrite]

/-- An asset is found under its path if no other is written to that place. -/
theorem read_eq (h : Wrote before after writes)
    (hn : (writes.map fun write => (write.placed before.target?).1).Nodup) {write : PlannedWrite}
    (hw : write ∈ writes) : after.read write.shader.path = .ok write.content := by
  obtain ⟨place, ht⟩ := Option.isSome_iff_exists.mp (h.targets write hw)
  have hplaced : write.placed before.target? = (place, write.content) := by
    simp [PlannedWrite.placed, ht]
  have hnode : after.node? place = some (.file write.content) := by
    rw [h.node?_eq]
    apply overwrite_of_mem
    · rwa [List.map_map]
    · exact hplaced ▸ List.mem_map_of_mem hw
  rw [← h.target?_eq] at ht
  refine bind_eq_ok.mpr ⟨place, (target?_eq_some.mp ht).1, ?_⟩
  rw [hnode]
  rfl

end Wrote

end FileTree

section Runs

variable {generate : Wrapper → StateM FileTree (Except String Unit)} {options : PackOptions}
  {file : SourceFile} {tree : FileTree}

theorem wrote_writeAll {writes : List PlannedWrite}
    (h : ((FileTree.access.writeAll writes).run tree).1 = .ok ()) :
    tree.Wrote ((FileTree.access.writeAll writes).run tree).2 writes := by
  induction writes generalizing tree with
  | nil => exact .refl tree
  | cons write rest ih =>
      simp only [FileAccess.writeAll, run_bind, FileTree.run_write] at h ⊢
      cases hw : tree.write write.shader.path write.content with
      | error cause =>
          simp only [hw] at h
          cases h
      | ok after =>
          simp only [hw] at h ⊢
          exact (FileTree.Wrote.single hw).trans (ih h)

/-- A declaration whose packing does not fail has had its assets written, if the generator leaves
the files alone. -/
theorem wrote_packDeclaration
    (hg : ∀ wrapper tree, ((generate wrapper).run tree).2 = tree) {decl : TypeDecl}
    {outcome : PackOutcome}
    (h : ((packDeclaration FileTree.access generate options decl).run tree).1.outcome =
      .ok outcome) :
    tree.Wrote ((packDeclaration FileTree.access generate options decl).run tree).2
      (decl.packPlan options).2.writes := by
  simp only [packDeclaration, run_bind] at h ⊢
  generalize (decl.packPlan options).2 = plan at h ⊢
  dsimp only [StateT.run_pure] at h ⊢
  cases plan with
  | notAnEffect => exact .refl tree
  | unbuildable cause => cases h
  | skip name => exact .refl tree
  | write name writes failure wrapper =>
      simp only [PackPlan.execute, run_bind] at h ⊢
      cases hw : ((FileTree.access.writeAll writes).run tree).1 with
      | error error =>
          rw [hw] at h
          cases h
      | ok _ =>
          have hwrote := wrote_writeAll hw
          generalize ((FileTree.access.writeAll writes).run tree).2 = written at hwrote h ⊢
          cases failure with
          | some error =>
              simp only [hw] at h
              cases h
          | none =>
              simp only [hw, run_bind] at h ⊢
              cases hanswer : ((generate wrapper).run written).1 with
              | error cause =>
                  simp only [hanswer] at h
                  cases h
              | ok _ =>
                  change tree.Wrote ((generate wrapper).run written).2 writes
                  rw [hg]
                  exact hwrote

theorem wrote_packDeclarations
    (hg : ∀ wrapper tree, ((generate wrapper).run tree).2 = tree) {decls : List TypeDecl}
    (h : ∀ result ∈ ((decls.mapM (packDeclaration FileTree.access generate options)).run tree).1,
      ∃ outcome, result.outcome = .ok outcome) :
    tree.Wrote ((decls.mapM (packDeclaration FileTree.access generate options)).run tree).2
      (decls.flatMap fun decl => (decl.packPlan options).2.writes) := by
  induction decls generalizing tree with
  | nil =>
      rw [List.mapM_nil]
      exact .refl tree
  | cons decl rest ih =>
      rw [Interleaving.run_mapM_cons] at h ⊢
      rw [List.forall_mem_cons] at h
      obtain ⟨⟨outcome, houtcome⟩, hrest⟩ := h
      rw [List.flatMap_cons]
      exact (wrote_packDeclaration hg houtcome).trans (ih hrest)

theorem PackReport.ok_of_addAll {results : List PackResult} {sink : Diagnostics}
    {start report : PackReport} (h : (PackReport.addAll sink start results).2 = .ok report) :
    ∀ result ∈ results, ∃ outcome, result.outcome = .ok outcome := by
  induction results generalizing sink start with
  | nil => simp
  | cons result rest ih =>
      simp only [addAll] at h
      cases ho : result.outcome with
      | error error =>
          simp only [ho] at h
          cases h
      | ok outcome =>
          simp only [ho] at h
          exact List.forall_mem_cons.mpr ⟨⟨outcome, ho⟩, ih h⟩

/-- The files after packing are those that were there with the directory, and the assets. -/
theorem wrote_packFile (hg : ∀ wrapper tree, ((generate wrapper).run tree).2 = tree)
    {report : PackReport}
    (h : ((packFile FileTree.access generate options file).run tree).1.2 = .ok report) :
    (tree.createDirectories options.outputDirectory).1.Wrote
      ((packFile FileTree.access generate options file).run tree).2
      (file.types.flatMap fun decl => (decl.packPlan options).2.writes) := by
  have hrun : (packFile FileTree.access generate options file).run tree =
      (PackReport.ofPacking
          ((packDeclarations FileTree.access generate options file).run tree).1,
        ((packDeclarations FileTree.access generate options file).run tree).2) := rfl
  have hcreate : (FileTree.access.createDirectories options.outputDirectory).run tree =
      ((tree.createDirectories options.outputDirectory).2,
        (tree.createDirectories options.outputDirectory).1) := rfl
  rw [hrun] at h ⊢
  simp only [packDeclarations, run_bind, hcreate] at h ⊢
  cases hc : (tree.createDirectories options.outputDirectory).2 with
  | error cause =>
      simp only [hc] at h
      cases h
  | ok _ =>
      simp only [hc] at h ⊢
      exact wrote_packDeclarations hg (PackReport.ok_of_addAll h)

theorem nodup_places {decls : List TypeDecl} (hplain : ∀ decl ∈ decls, decl.HasPlainNames)
    (hn : (decls.flatMap (·.assetPaths options)).Nodup)
    (ht : ∀ decl ∈ decls, ∀ write ∈ (decl.packPlan options).2.writes,
      (tree.target? write.shader.path).isSome) :
    ((decls.flatMap fun decl => (decl.packPlan options).2.writes).map
      fun write => (write.placed tree.target?).1).Nodup := by
  have hpaths : ((decls.flatMap fun decl => (decl.packPlan options).2.writes).map
      (·.shader.path)).Nodup := by
    rw [List.map_flatMap]
    exact hn
  rw [List.Nodup, List.pairwise_map] at hpaths ⊢
  refine hpaths.imp_of_mem fun {write other} hw ho hne heq => hne ?_
  obtain ⟨decl, hd, hw⟩ := List.mem_flatMap.mp hw
  obtain ⟨decl', hd', ho⟩ := List.mem_flatMap.mp ho
  obtain ⟨place, hplace⟩ := Option.isSome_iff_exists.mp (ht decl hd write hw)
  obtain ⟨place', hplace'⟩ := Option.isSome_iff_exists.mp (ht decl' hd' other ho)
  simp only [PlannedWrite.placed, hplace, hplace', Option.getD_some] at heq
  subst heq
  exact TypeDecl.assetPaths_eq_of_locate (hplain decl hd) (hplain decl' hd')
    (List.mem_map_of_mem hw) (List.mem_map_of_mem ho)
    (FileTree.target?_eq_some.mp hplace).1 (FileTree.target?_eq_some.mp hplace').1

/-- The assets of a file have paths of their own exactly if no two of its effects meet: the name of
one is that of the other with an underscore and a text that the name of a method starts with. Names
without underscores never meet. Where paths are different, every asset is found under its path. -/
theorem assets_have_own_paths_iff {diagnostics : Diagnostics} {report : PackReport}
    {after : FileTree} (hn : (file.types.map (·.name)).Nodup)
    (hr : (packFile FileTree.access generate options file).run tree =
      ((diagnostics, .ok report), after)) :
    (report.paths.Nodup ↔
        report.packed.Pairwise (PackedEffect.Apart options.outputDirectory)) ∧
      ((∀ effect ∈ report.packed, isRooted effect.name = false) →
        ((∀ effect ∈ report.packed, '_' ∉ effect.name.toList) ∨
          ∀ effect ∈ report.packed, ∀ shader ∈ effect.shaders, '_' ∉ shader.method.toList) →
        report.paths.Nodup) ∧
      ((∀ wrapper tree, ((generate wrapper).run tree).2 = tree) →
        (∀ decl ∈ file.types, decl.HasPlainNames) → report.paths.Nodup →
        ∀ effect ∈ report.packed, ∀ shader ∈ effect.shaders, ∃ content,
          shader.asset.toBytes = .ok content ∧ after.read shader.path = .ok content) := by
  obtain ⟨-, hcovers⟩ := covers_of_packFile hr
  refine ⟨hcovers.nodup_paths_iff, fun hrooted hunderscore => ?_, ?_⟩
  · exact hcovers.nodup_paths_iff.mpr (hcovers.pairwise_apart hn hrooted hunderscore)
  · intro hg hplain hnodup effect he shader hs
    have hwrote := wrote_packFile hg (congrArg (·.1.2) hr)
    rw [congrArg Prod.snd hr] at hwrote
    obtain ⟨decl, hd, hbecomes⟩ := hcovers.exists_decl he
    rw [hbecomes.shaders_eq] at hs
    obtain ⟨write, hw, rfl⟩ := List.mem_map.mp hs
    obtain ⟨built, -, method, -, hplan⟩ := TypeDecl.mem_writes hw
    have hplaces := nodup_places hplain (hcovers.paths_eq ▸ hnodup) fun decl hd write hw =>
      hwrote.targets write (List.mem_flatMap.mpr ⟨decl, hd, hw⟩)
    exact ⟨write.content, (planWrite_eq_ok hplan).2.1,
      hwrote.read_eq hplaces (List.mem_flatMap.mpr ⟨decl, hd, hw⟩)⟩

end Runs

/-- Names that are all different do not keep the assets apart: an effect and a method of it have an
underscore each, where those of another effect have theirs. -/
theorem waterFile_shares_path :
    (waterFile.types.map (·.name)).Nodup ∧
      ∃ diagnostics report after,
        (packFile FileTree.access withoutWrappers {} waterFile).run FileTree.fresh =
            ((diagnostics, .ok report), after) ∧ ¬ report.paths.Nodup := by
  obtain ⟨diagnostics, report, after, hr, hpaths⟩ := exists_report paths_waterFile
  refine ⟨by decide, diagnostics, report, after, hr, ?_⟩
  rw [PackReport.paths, List.flatMap_def, hpaths]
  decide

/-- Two effects whose names have no underscores. -/
def skyFile : SourceFile where
  types := [idleEffect "Water" "Deep_Shade", idleEffect "Sky" "Shade"]

theorem names_skyFile :
    ((packFile FileTree.access withoutWrappers {} skyFile).run FileTree.fresh).1.2.toOption.map
        (fun report => report.packed.map (·.name)) = some ["Water", "Sky"] := by
  decide +kernel

/-- All assets of the file are found under their paths. -/
theorem skyFile_keeps_assets : ∃ diagnostics report after,
    (packFile FileTree.access withoutWrappers {} skyFile).run FileTree.fresh =
        ((diagnostics, .ok report), after) ∧
      report.packed.map (·.name) = ["Water", "Sky"] ∧ report.paths.Nodup ∧
      ∀ effect ∈ report.packed, ∀ shader ∈ effect.shaders, ∃ content,
        shader.asset.toBytes = .ok content ∧ after.read shader.path = .ok content := by
  obtain ⟨diagnostics, report, after, hr, hnames⟩ := exists_report names_skyFile
  obtain ⟨-, hunderscore, hkept⟩ := assets_have_own_paths_iff (by decide) hr
  have hplain : ∀ effect ∈ report.packed,
      isRooted effect.name = false ∧ '_' ∉ effect.name.toList := by
    have hall : ∀ name ∈ ["Water", "Sky"], isRooted name = false ∧ '_' ∉ name.toList := by
      decide
    intro effect he
    exact hall effect.name (hnames ▸ List.mem_map_of_mem he)
  have hnodup := hunderscore (fun effect he => (hplain effect he).1)
    (.inl fun effect he => (hplain effect he).2)
  have hslashes : ∀ decl ∈ skyFile.types, '/' ∉ decl.name.toList ∧
      ∀ method ∈ decl.methods, '/' ∉ method.name.toList := by
    decide +kernel
  exact ⟨diagnostics, report, after, hr, hnames, hnodup,
    hkept (fun _ _ => rfl) hslashes hnodup⟩

end ShaderEffect
