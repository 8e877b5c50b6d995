import ShaderEffect.Package.Pack
import ShaderEffect.Proofs.Coverage
import ShaderEffect.Proofs.Interleaving

/-!
# Packing at the same time

The declarations of a file may be packed at the same time. As long as they write to different
places, nothing depends on the turns that they take: not what becomes of a declaration, nor the
diagnostics, nor the report, nor the files.
-/

namespace ShaderEffect

open Relation (ReflTransGen)

/-! ## Packing without stops -/

/-- Packing without a generator of wrappers. -/
def withoutWrappers {m : Type → Type} [Monad m] (_ : Wrapper) : m (Except String Unit) :=
  return .ok ()

namespace Resumption

theorem perform_writeAll (writes : List PlannedWrite) :
    (access.writeAll writes).perform = FileTree.access.writeAll writes := by
  induction writes with
  | nil => rfl
  | cons write rest ih =>
      simp only [FileAccess.writeAll, perform_bind, perform_write]
      refine congrArg _ (funext fun answer => ?_)
      cases answer with
      | error cause => rfl
      | ok _ => exact ih

theorem perform_execute (plan : PackPlan) :
    (plan.execute access withoutWrappers).perform =
      plan.execute FileTree.access withoutWrappers := by
  cases plan with
  | notAnEffect => rfl
  | unbuildable cause => rfl
  | skip name => rfl
  | write name writes failure wrapper =>
      simp only [PackPlan.execute, perform_bind, perform_writeAll]
      refine congrArg _ (funext fun answer => ?_)
      cases answer with
      | error error => rfl
      | ok _ =>
          cases failure with
          | some error => rfl
          | none => rfl

theorem perform_packDeclaration (options : PackOptions) (decl : TypeDecl) :
    (packDeclaration access withoutWrappers options decl).perform =
      packDeclaration FileTree.access withoutWrappers options decl := by
  simp only [packDeclaration, perform_bind, perform_execute, perform_pure]

end Resumption

/-! ## What packing does -/

/-- The assets that a plan writes. -/
def PackPlan.writes : PackPlan → List PlannedWrite
  | write _ writes _ _ => writes
  | _ => []

/-- The plan for a declaration writes assets if an effect is built from it and valid. -/
theorem TypeDecl.packPlan_cases (decl : TypeDecl) (options : PackOptions) :
    (decl.packPlan options).2 = .notAnEffect ∨
      (∃ cause, (decl.packPlan options).2 = .unbuildable cause) ∨
      (∃ name, (decl.packPlan options).2 = .skip name) ∨
      ∃ effect, decl.build.result = .ok effect ∧ (decl.packPlan options).2 =
        .write effect.name (effect.planWrites options effect.methods).1
          (effect.planWrites options effect.methods).2 effect.wrapper := by
  unfold TypeDecl.packPlan
  split
  · exact .inl rfl
  · dsimp only
    split
    · exact .inr (.inr (.inl ⟨_, rfl⟩))
    · exact .inr (.inl ⟨_, rfl⟩)
    · rename_i effect hb
      split
      · exact .inr (.inr (.inr ⟨effect, hb, rfl⟩))
      · exact .inr (.inr (.inl ⟨_, rfl⟩))

/-- What becomes of a declaration if all its assets can be written. -/
def PackPlan.outcome : PackPlan → Except PackError PackOutcome
  | notAnEffect => .ok .notAnEffect
  | unbuildable cause => .error (.building cause)
  | skip name => .ok (.skipped name)
  | write _ _ (some error) _ => .error error
  | write name writes none wrapper =>
    .ok (.packed { name, shaders := writes.map (·.shader), wrapper })

/-- Where an asset is written to, with its content. -/
def PlannedWrite.placed (target? : String → Option (List String)) (write : PlannedWrite) :
    List String × List UInt8 :=
  ((target? write.shader.path).getD [], write.content)

namespace Resumption

variable {target? : String → Option (List String)}

theorem makes_writeAll {writes : List PlannedWrite}
    (h : ∀ write ∈ writes, (target? write.shader.path).isSome) :
    (access.writeAll writes).Makes target? (writes.map (·.placed target?)) (.ok ()) := by
  induction writes with
  | nil => exact .done _
  | cons write rest ih =>
      obtain ⟨place, hp⟩ := Option.isSome_iff_exists.mp (h write List.mem_cons_self)
      have hplaced : write.placed target? = (place, write.content) := by
        simp [PlannedWrite.placed, hp]
      rw [List.map_cons, hplaced]
      exact .write hp (ih fun other ho => h other (List.mem_cons_of_mem _ ho))

theorem makes_execute {plan : PackPlan}
    (h : ∀ write ∈ plan.writes, (target? write.shader.path).isSome) :
    (plan.execute access withoutWrappers).Makes target? (plan.writes.map (·.placed target?))
      plan.outcome := by
  cases plan with
  | notAnEffect => exact .done _
  | unbuildable cause => exact .done _
  | skip name => exact .done _
  | write name writes failure wrapper =>
      rw [← List.append_nil (List.map _ _)]
      refine (makes_writeAll h).bind ?_
      cases failure <;> exact .done _

end Resumption

/-! ## Files that cannot be written -/

/-- Whether an error is that a file could not be written. -/
def PackError.isWriting : PackError → Bool
  | writing _ _ => true
  | _ => false

/-- Whether no file of a declaration failed to be written. -/
def PackResult.couldWrite (result : PackResult) : Bool :=
  match result.outcome with
  | .error error => !error.isWriting
  | .ok _ => true

/-- The layout comes first, whatever the stage. -/
theorem asset_eq_bind (effect : Effect) (method : ShaderMethod) (version : GlslVersion) :
    effect.asset method version =
      (match method.stage with
        | .vertex => method.vertexLayout.mapError .vertexInput
        | .fragment => .ok []) >>= fun inputs => do
          let hlsl ← (effect.compile .hlsl method.name).mapError .compilation
          let glsl ← (effect.compile (.glsl version) method.name).mapError .compilation
          return { stage := method.stage, inputs, hlsl := hlsl.source, glsl := glsl.source } := by
  unfold Effect.asset
  cases method.stage with
  | vertex => rfl
  | fragment => rfl

/-- A method has no asset if an input has no format or a language cannot write it. -/
theorem asset_eq_error {effect : Effect} {method : ShaderMethod} {version : GlslVersion}
    {error : PackError} (h : effect.asset method version = .error error) :
    (∃ input, method.vertexLayout = .error input ∧ error = .vertexInput input) ∨
      ∃ cause, error = .compilation cause := by
  rw [asset_eq_bind] at h
  rcases bind_eq_error.mp h with hinputs | ⟨inputs, -, h⟩
  · cases hs : method.stage with
    | vertex =>
        rw [hs] at hinputs
        obtain ⟨input, hi, rfl⟩ := mapError_eq_error.mp hinputs
        exact .inl ⟨input, hi, rfl⟩
    | fragment =>
        rw [hs] at hinputs
        cases hinputs
  · rcases bind_eq_error.mp h with hhlsl | ⟨hlsl, -, h⟩
    · obtain ⟨cause, -, rfl⟩ := mapError_eq_error.mp hhlsl
      exact .inr ⟨cause, rfl⟩
    · rcases bind_eq_error.mp h with hglsl | ⟨glsl, -, h⟩
      · obtain ⟨cause, -, rfl⟩ := mapError_eq_error.mp hglsl
        exact .inr ⟨cause, rfl⟩
      · cases h

/-- An asset has the stage of the method, and that of a vertex shader has its layout. -/
theorem asset_eq_ok {effect : Effect} {method : ShaderMethod} {version : GlslVersion}
    {asset : Asset} (h : effect.asset method version = .ok asset) :
    asset.stage = method.stage ∧
      (method.stage = .vertex → method.vertexLayout = .ok asset.inputs) := by
  rw [asset_eq_bind] at h
  obtain ⟨inputs, hinputs, h⟩ := bind_eq_ok.mp h
  obtain ⟨hlsl, -, h⟩ := bind_eq_ok.mp h
  obtain ⟨glsl, -, h⟩ := bind_eq_ok.mp h
  cases h
  refine ⟨rfl, fun hs => ?_⟩
  cases hl : method.vertexLayout with
  | error input =>
      rw [hs, hl] at hinputs
      cases hinputs
  | ok layout =>
      rw [hs, hl] at hinputs
      cases hinputs
      rfl

theorem planWrite_eq_ok {effect : Effect} {options : PackOptions} {method : ShaderMethod}
    {write : PlannedWrite} (h : effect.planWrite options method = .ok write) :
    effect.asset method options.glslVersion = .ok write.shader.asset ∧
      write.shader.asset.toBytes = .ok write.content ∧ write.shader.method = method.name ∧
      write.shader.path =
        joinPath options.outputDirectory (assetFileName effect.name method.name method.stage) := by
  obtain ⟨asset, hasset, h⟩ := bind_eq_ok.mp h
  obtain ⟨content, hcontent, h⟩ := bind_eq_ok.mp h
  cases h
  refine ⟨hasset, ?_, rfl, rfl⟩
  cases hb : asset.toBytes with
  | error cause =>
      rw [hb] at hcontent
      cases hcontent
  | ok bytes =>
      rw [hb] at hcontent
      cases hcontent
      rfl

theorem planWrite_eq_error {effect : Effect} {options : PackOptions} {method : ShaderMethod}
    {error : PackError} (h : effect.planWrite options method = .error error) :
    effect.asset method options.glslVersion = .error error ∨
      ∃ asset cause, effect.asset method options.glslVersion = .ok asset ∧
        asset.toBytes = .error cause ∧ error = .asset cause := by
  rcases bind_eq_error.mp h with hasset | ⟨asset, hasset, h⟩
  · exact .inl hasset
  · rcases bind_eq_error.mp h with hbytes | ⟨content, -, h⟩
    · obtain ⟨cause, hc, rfl⟩ := mapError_eq_error.mp hbytes
      exact .inr ⟨asset, cause, hasset, hc, rfl⟩
    · cases h

theorem planWrites_eq_some {effect : Effect} {options : PackOptions}
    {methods : List ShaderMethod} {error : PackError}
    (h : (effect.planWrites options methods).2 = some error) :
    ∃ method ∈ methods, effect.planWrite options method = .error error := by
  induction methods with
  | nil => cases h
  | cons method rest ih =>
      simp only [Effect.planWrites] at h
      cases hw : effect.planWrite options method with
      | error cause =>
          simp only [hw, Option.some.injEq] at h
          exact ⟨method, List.mem_cons_self, h ▸ hw⟩
      | ok planned =>
          simp only [hw] at h
          obtain ⟨other, ho, herror⟩ := ih h
          exact ⟨other, List.mem_cons_of_mem _ ho, herror⟩

theorem isWriting_of_planWrites {effect : Effect} {options : PackOptions}
    {methods : List ShaderMethod} {error : PackError}
    (h : (effect.planWrites options methods).2 = some error) : error.isWriting = false := by
  obtain ⟨method, -, herror⟩ := planWrites_eq_some h
  rcases planWrite_eq_error herror with hasset | ⟨asset, cause, -, -, rfl⟩
  · rcases asset_eq_error hasset with ⟨input, -, rfl⟩ | ⟨cause, rfl⟩ <;> rfl
  · rfl

/-- Planning itself fails for other reasons only. -/
theorem isWriting_of_outcome {decl : TypeDecl} {options : PackOptions} {error : PackError}
    (h : (decl.packPlan options).2.outcome = .error error) : error.isWriting = false := by
  rcases decl.packPlan_cases options with hp | ⟨cause, hp⟩ | ⟨name, hp⟩ | ⟨effect, -, hp⟩
  · rw [hp] at h
    cases h
  · rw [hp] at h
    cases h
    rfl
  · rw [hp] at h
    cases h
  · rw [hp] at h
    cases hf : (effect.planWrites options effect.methods).2 with
    | none =>
        rw [hf] at h
        cases h
    | some failure =>
        rw [hf] at h
        cases h
        exact isWriting_of_planWrites hf

section Serial

open FileTree (access)

variable {tree : FileTree}

/-- Whether or not assets can be written, no target moves. -/
theorem target?_writeAll (writes : List PlannedWrite) (tree : FileTree) :
    ((access.writeAll writes).run tree).2.target? = tree.target? := by
  induction writes generalizing tree with
  | nil => rfl
  | cons write rest ih =>
      simp only [FileAccess.writeAll, StateT.run_bind, FileTree.run_write]
      cases hw : tree.write write.shader.path write.content with
      | error cause => rfl
      | ok after =>
          obtain ⟨place, ht, rfl⟩ := FileTree.exists_target? hw
          exact (ih _).trans (FileTree.target?_insert (FileTree.target?_eq_some.mp ht).2 _)

/-- Assets are all written, or one of them has no target. -/
theorem writeAll_cases (writes : List PlannedWrite) (tree : FileTree) :
    (((access.writeAll writes).run tree).1 = .ok () ∧
        ∀ write ∈ writes, (tree.target? write.shader.path).isSome) ∨
      ∃ write ∈ writes, tree.target? write.shader.path = none ∧
        ∃ cause, ((access.writeAll writes).run tree).1 =
          .error (.writing write.shader.path cause) := by
  induction writes generalizing tree with
  | nil => exact .inl ⟨rfl, by simp⟩
  | cons write rest ih =>
      simp only [FileAccess.writeAll, StateT.run_bind, FileTree.run_write]
      cases ht : tree.target? write.shader.path with
      | none =>
          obtain ⟨cause, hw⟩ := FileTree.write_of_target?_eq_none ht write.content
          rw [hw]
          exact .inr ⟨write, List.mem_cons_self, ht, cause, rfl⟩
      | some place =>
          rw [FileTree.write_of_target? ht]
          have hkept := FileTree.target?_insert (FileTree.target?_eq_some.mp ht).2 write.content
          rcases ih (tree.insert place (.file write.content)) with ⟨hr, hall⟩ | ⟨other, ho, hn, hr⟩
          · refine .inl ⟨hr, fun other ho => ?_⟩
            rcases List.mem_cons.mp ho with rfl | ho
            · simp [ht]
            · exact hkept ▸ hall other ho
          · exact .inr ⟨other, List.mem_cons_of_mem _ ho, hkept ▸ hn, hr⟩

/-- A plan writes its assets, and has its outcome unless one of them could not be written. -/
theorem run_execute (plan : PackPlan) (tree : FileTree) :
    (plan.execute access withoutWrappers).run tree =
      (((access.writeAll plan.writes).run tree).1.bind fun _ => plan.outcome,
        ((access.writeAll plan.writes).run tree).2) := by
  cases plan with
  | notAnEffect => rfl
  | unbuildable cause => rfl
  | skip name => rfl
  | write name writes failure wrapper =>
      simp only [PackPlan.execute, StateT.run_bind, PackPlan.writes]
      generalize (access.writeAll writes).run tree = written
      obtain ⟨answer, after⟩ := written
      cases answer with
      | error error => rfl
      | ok _ => cases failure <;> rfl

theorem run_packDeclaration (options : PackOptions) (decl : TypeDecl) (tree : FileTree) :
    (packDeclaration access withoutWrappers options decl).run tree =
      ({ diagnostics := (decl.packPlan options).1
         outcome := ((access.writeAll (decl.packPlan options).2.writes).run tree).1.bind fun _ =>
          (decl.packPlan options).2.outcome },
        ((access.writeAll (decl.packPlan options).2.writes).run tree).2) := by
  have hrun := run_execute (decl.packPlan options).2 tree
  simp only [packDeclaration, StateT.run_bind, hrun]
  rfl

/-- The paths of the assets of a declaration. -/
def TypeDecl.assetPaths (decl : TypeDecl) (options : PackOptions) : List String :=
  (decl.packPlan options).2.writes.map (·.shader.path)

/-- The files of a declaration can be written exactly if their paths have targets. -/
theorem couldWrite_packDeclaration (options : PackOptions) (decl : TypeDecl) (tree : FileTree) :
    ((packDeclaration access withoutWrappers options decl).run tree).1.couldWrite ↔
      ∀ path ∈ decl.assetPaths options, (tree.target? path).isSome := by
  rw [run_packDeclaration]
  simp only [TypeDecl.assetPaths, List.forall_mem_map]
  rcases writeAll_cases (decl.packPlan options).2.writes tree with
    ⟨hr, hall⟩ | ⟨write, hw, hn, cause, hr⟩
  · refine iff_of_true ?_ hall
    simp only [PackResult.couldWrite, hr, Except.bind]
    cases ho : (decl.packPlan options).2.outcome with
    | ok outcome => rfl
    | error error => simp [isWriting_of_outcome ho]
  · refine iff_of_false ?_ fun hall => ?_
    · simp [PackResult.couldWrite, hr, Except.bind, PackError.isWriting]
    · simpa [hn] using hall write hw

theorem couldWrite_packDeclarations (options : PackOptions) (decls : List TypeDecl)
    (tree : FileTree) :
    (∀ result ∈ ((decls.mapM (packDeclaration access withoutWrappers options)).run tree).1,
        result.couldWrite) ↔
      ∀ decl ∈ decls, ∀ path ∈ decl.assetPaths options, (tree.target? path).isSome := by
  induction decls generalizing tree with
  | nil =>
      rw [List.mapM_nil]
      exact iff_of_true (fun result hr => by cases hr) (fun decl hd => by cases hd)
  | cons decl rest ih =>
      have hkept : ((packDeclaration access withoutWrappers options decl).run tree).2.target? =
          tree.target? := by
        rw [run_packDeclaration]
        exact target?_writeAll _ tree
      rw [Interleaving.run_mapM_cons]
      simp only [List.forall_mem_cons, couldWrite_packDeclaration, ih, hkept]

end Serial

/-! ## The end of packing -/

/-- The declarations of a file when the output directory is there and none is packed yet. -/
def Interleaving.packing (tree : FileTree) (options : PackOptions) (file : SourceFile) :
    Interleaving PackResult where
  tree := (tree.createDirectories options.outputDirectory).1
  tasks := file.types.map (packDeclaration Resumption.access withoutWrappers options)

/-- Different declarations write to different places. -/
def SourceFile.WritesApart (file : SourceFile) (options : PackOptions) (tree : FileTree) : Prop :=
  file.types.Pairwise fun first second =>
    ∀ path ∈ first.assetPaths options, ∀ other ∈ second.assetPaths options,
      ∀ place, tree.locate path = .ok place → tree.locate other ≠ .ok place

/-- The names of a declaration and of its methods have no slashes. -/
def TypeDecl.HasPlainNames (decl : TypeDecl) : Prop :=
  '/' ∉ decl.name.toList ∧ ∀ method ∈ decl.methods, '/' ∉ method.name.toList

theorem isFileName_assetFileName {effect method : String} (stage : Stage)
    (he : '/' ∉ effect.toList) (hm : '/' ∉ method.toList) :
    IsFileName (assetFileName effect method stage) := by
  have htext : (assetFileName effect method stage).toList =
      effect.toList ++ '_' :: method.toList ++ '.' :: stage.fileSuffix.toList ++ ".bin".toList := by
    simp [assetFileName, toString]
  have hlong (name : String) (hn : '_' ∉ name.toList) :
      assetFileName effect method stage ≠ name := by
    intro h
    exact hn (h ▸ by simp [htext])
  refine ⟨?_, hlong "" (by decide), hlong "." (by decide), hlong ".." (by decide)⟩
  rw [htext]
  cases stage <;> simp [he, hm, Stage.fileSuffix]

theorem mem_planWrites {effect : Effect} {options : PackOptions} {methods : List ShaderMethod}
    {write : PlannedWrite} (h : write ∈ (effect.planWrites options methods).1) :
    ∃ method ∈ methods, effect.planWrite options method = .ok write := by
  induction methods with
  | nil => cases h
  | cons method rest ih =>
      simp only [Effect.planWrites] at h
      cases hw : effect.planWrite options method with
      | error error => simp [hw] at h
      | ok planned =>
          simp only [hw] at h
          rcases List.mem_cons.mp h with rfl | h
          · exact ⟨method, List.mem_cons_self, hw⟩
          · obtain ⟨other, ho, hp⟩ := ih h
            exact ⟨other, List.mem_cons_of_mem _ ho, hp⟩

theorem TypeDecl.mem_writes {decl : TypeDecl} {options : PackOptions} {write : PlannedWrite}
    (h : write ∈ (decl.packPlan options).2.writes) :
    ∃ effect, decl.build.result = .ok effect ∧
      ∃ method ∈ effect.methods, effect.planWrite options method = .ok write := by
  rcases decl.packPlan_cases options with hp | ⟨cause, hp⟩ | ⟨name, hp⟩ | ⟨effect, hb, hp⟩
  · simp [hp, PackPlan.writes] at h
  · simp [hp, PackPlan.writes] at h
  · simp [hp, PackPlan.writes] at h
  · rw [hp] at h
    exact ⟨effect, hb, mem_planWrites h⟩

theorem TypeDecl.mem_assetPaths {decl : TypeDecl} {options : PackOptions} {path : String}
    (h : path ∈ decl.assetPaths options) :
    ∃ method ∈ decl.methods, ∃ stage, path =
      joinPath options.outputDirectory (assetFileName decl.name method.name stage) := by
  obtain ⟨write, hw, rfl⟩ := List.mem_map.mp h
  obtain ⟨effect, hb, method, hm, hplan⟩ := TypeDecl.mem_writes hw
  obtain ⟨-, -, -, hpath⟩ := planWrite_eq_ok hplan
  obtain ⟨declared, hd, hs⟩ := Effect.mem_methods hb hm
  have hname : effect.name = decl.name := (congrArg (·.1.name) (TypeDecl.scan_of_build hb)).symm
  rw [hname, hs.name_eq] at hpath
  exact ⟨declared, hd, method.stage, hpath⟩

/-- Where names have no slashes, different paths lead to different places. -/
theorem TypeDecl.assetPaths_eq_of_locate {first second : TypeDecl} {options : PackOptions}
    (hf : first.HasPlainNames) (hs : second.HasPlainNames) {path other : String}
    (hp : path ∈ first.assetPaths options) (ho : other ∈ second.assetPaths options)
    {tree : FileTree} {place : List String} (hl : tree.locate path = .ok place)
    (hl' : tree.locate other = .ok place) : path = other := by
  obtain ⟨method, hm, stage, rfl⟩ := TypeDecl.mem_assetPaths hp
  obtain ⟨method', hm', stage', rfl⟩ := TypeDecl.mem_assetPaths ho
  have heq := FileTree.eq_of_locate_joinPath
    (isFileName_assetFileName stage hf.1 (hf.2 method hm))
    (isFileName_assetFileName stage' hs.1 (hs.2 method' hm')) hl hl'
  rw [heq]

/-- Where names have no slashes, it is enough that different declarations have different paths. -/
theorem SourceFile.writesApart_of_paths {file : SourceFile} {options : PackOptions}
    (hn : ∀ decl ∈ file.types, decl.HasPlainNames)
    (hp : file.types.Pairwise fun first second =>
      ∀ path ∈ first.assetPaths options, path ∉ second.assetPaths options) (tree : FileTree) :
    file.WritesApart options tree := by
  refine hp.imp_of_mem fun hf hs happart path hpath other hother place hl hl' => ?_
  have heq := TypeDecl.assetPaths_eq_of_locate (hn _ hf) (hn _ hs) hpath hother hl hl'
  exact happart path hpath (heq ▸ hother)

/-- What is expected of the packing of a declaration. -/
def TypeDecl.forecast (decl : TypeDecl) (options : PackOptions)
    (target? : String → Option (List String)) : Forecast PackResult where
  task := packDeclaration Resumption.access withoutWrappers options decl
  writes := (decl.packPlan options).2.writes.map (·.placed target?)
  value := ⟨(decl.packPlan options).1, (decl.packPlan options).2.outcome⟩

theorem TypeDecl.makes_forecast {decl : TypeDecl} {options : PackOptions}
    {target? : String → Option (List String)}
    (h : ∀ path ∈ decl.assetPaths options, (target? path).isSome) :
    (decl.forecast options target?).task.Makes target? (decl.forecast options target?).writes
      (decl.forecast options target?).value := by
  have hexecute : ((decl.packPlan options).2.execute Resumption.access withoutWrappers).Makes
      target? (decl.forecast options target?).writes (decl.packPlan options).2.outcome :=
    Resumption.makes_execute fun write hw => h _ (List.mem_map_of_mem hw)
  rw [← List.append_nil (decl.forecast options target?).writes]
  exact hexecute.bind (.done _)

theorem locate_of_placed {tree : FileTree} {decl : TypeDecl} {options : PackOptions}
    {write : List String × List UInt8}
    (h : ∀ path ∈ decl.assetPaths options, (tree.target? path).isSome)
    (hw : write ∈ (decl.forecast options tree.target?).writes) :
    ∃ path ∈ decl.assetPaths options, tree.locate path = .ok write.1 := by
  obtain ⟨planned, hp, rfl⟩ := List.mem_map.mp hw
  have hpath : planned.shader.path ∈ decl.assetPaths options := List.mem_map_of_mem hp
  obtain ⟨place, ht⟩ := Option.isSome_iff_exists.mp (h _ hpath)
  refine ⟨_, hpath, ?_⟩
  simpa [PlannedWrite.placed, ht] using (FileTree.target?_eq_some.mp ht).1

theorem ahead_packing {tree : FileTree} {options : PackOptions} {file : SourceFile}
    (ht : ∀ decl ∈ file.types, ∀ path ∈ decl.assetPaths options,
      ((tree.createDirectories options.outputDirectory).1.target? path).isSome)
    (ha : file.WritesApart options (tree.createDirectories options.outputDirectory).1) :
    (Interleaving.packing tree options file).Ahead
      (file.types.map (·.forecast options
        (tree.createDirectories options.outputDirectory).1.target?)) := by
  refine ⟨?_, ?_, ?_⟩
  · simp [Interleaving.packing, TypeDecl.forecast]
  · intro forecast hf
    obtain ⟨decl, hd, rfl⟩ := List.mem_map.mp hf
    exact TypeDecl.makes_forecast (ht decl hd)
  · refine List.pairwise_map.mpr (ha.imp_of_mem ?_)
    intro first second hf hs happart a hwa b hwb heq
    obtain ⟨path, hp, hl⟩ := locate_of_placed (ht first hf) hwa
    obtain ⟨other, ho, hl'⟩ := locate_of_placed (ht second hs) hwb
    exact happart path hp other ho a.1 hl (heq ▸ hl')

/-- Packing one declaration after the other is a way to take turns. -/
theorem steps_serial {tree serial : FileTree} {options : PackOptions} {file : SourceFile}
    {results : List PackResult}
    (h : (file.types.mapM (packDeclaration FileTree.access withoutWrappers options)).run
      (tree.createDirectories options.outputDirectory).1 = (results, serial)) :
    ReflTransGen Interleaving.Step (.packing tree options file) ⟨serial, results.map .done⟩ := by
  have hsteps := Interleaving.steps_mapM_perform
    (tree.createDirectories options.outputDirectory).1 []
    (file.types.map (packDeclaration Resumption.access withoutWrappers options))
  have hperform : (fun decl => (packDeclaration Resumption.access withoutWrappers options
      decl).perform) = packDeclaration FileTree.access withoutWrappers options :=
    funext (Resumption.perform_packDeclaration options)
  simp only [List.mapM_map, Function.comp_def, hperform, h] at hsteps
  exact hsteps

/-- The declarations are packed if the output directory is there. -/
theorem run_packDeclarations {tree prepared : FileTree} {options : PackOptions}
    (h : tree.createDirectories options.outputDirectory = (prepared, .ok ())) (file : SourceFile) :
    (packDeclarations FileTree.access withoutWrappers options file).run tree =
      (.ok ((file.types.mapM (packDeclaration FileTree.access withoutWrappers options)).run
          prepared).1,
        ((file.types.mapM (packDeclaration FileTree.access withoutWrappers options)).run
          prepared).2) := by
  have hcreate : (FileTree.access.createDirectories options.outputDirectory).run tree =
      (.ok (), prepared) := by
    change ((tree.createDirectories options.outputDirectory).2,
      (tree.createDirectories options.outputDirectory).1) = _
    rw [h]
  simp only [packDeclarations, StateT.run_bind, hcreate]
  rfl

theorem created_of_packDeclarations {tree serial : FileTree} {options : PackOptions}
    {file : SourceFile} {results : List PackResult}
    (h : (packDeclarations FileTree.access withoutWrappers options file).run tree =
      (.ok results, serial)) : (tree.createDirectories options.outputDirectory).2 = .ok () := by
  cases hc : (tree.createDirectories options.outputDirectory).2 with
  | ok _ => rfl
  | error cause =>
      have hcreate : (FileTree.access.createDirectories options.outputDirectory).run tree =
          (.error cause, (tree.createDirectories options.outputDirectory).1) := by
        rw [← hc]
        rfl
      simp only [packDeclarations, StateT.run_bind, hcreate] at h
      cases congrArg Prod.fst h

theorem run_of_packDeclarations {tree serial : FileTree} {options : PackOptions}
    {file : SourceFile} {results : List PackResult}
    (h : (packDeclarations FileTree.access withoutWrappers options file).run tree =
      (.ok results, serial)) :
    (file.types.mapM (packDeclaration FileTree.access withoutWrappers options)).run
      (tree.createDirectories options.outputDirectory).1 = (results, serial) := by
  have hrun := run_packDeclarations (Prod.ext rfl (created_of_packDeclarations h)) file
  have heq := hrun.symm.trans h
  have hresults := Except.ok.inj (congrArg Prod.fst heq)
  have hserial := congrArg Prod.snd heq
  exact Prod.ext hresults hserial

/-- Packing does not depend on the turns that declarations take. Where one declaration after the
other is packed without a file that could not be written, and different declarations write to
different places, every way to take turns can be finished, and at the end there are the same report
or error with the same diagnostics, and the same files. -/
theorem packing_independent_of_turns {options : PackOptions} {file : SourceFile}
    {tree serial : FileTree} {results : List PackResult}
    (hs : (packDeclarations FileTree.access withoutWrappers options file).run tree =
      (.ok results, serial))
    (hw : ∀ result ∈ results, result.couldWrite)
    (ha : file.WritesApart options (tree.createDirectories options.outputDirectory).1)
    {state : Interleaving PackResult}
    (hr : ReflTransGen Interleaving.Step (.packing tree options file) state) :
    (∃ last values, ReflTransGen Interleaving.Step state last ∧ last.Finished values) ∧
      ∀ values, state.Finished values →
        PackReport.ofResults values =
            ((packFile FileTree.access withoutWrappers options file).run tree).1 ∧
          state.tree.node? = serial.node? ∧ state.tree.read = serial.read := by
  have hmapM := run_of_packDeclarations hs
  have htargets := (couldWrite_packDeclarations options file.types _).mp (by rwa [hmapM])
  refine ⟨state.exists_finished, fun values hv => ?_⟩
  obtain ⟨rfl, hnodes, hcurrent⟩ :=
    (ahead_packing htargets ha).end_alike hr (steps_serial hmapM) hv rfl
  have hreport : ((packFile FileTree.access withoutWrappers options file).run tree).1 =
      PackReport.ofPacking
        ((packDeclarations FileTree.access withoutWrappers options file).run tree).1 := rfl
  refine ⟨?_, hnodes, FileTree.read_congr hcurrent hnodes⟩
  rw [hreport, hs, PackReport.ofPacking]

/-- An effect with a method that cannot be written after two that can, an effect with a reserved
name, and one without errors. -/
def mixedFile : SourceFile where
  types := [{ hiddenType with name := "Lighting" }, { tinting [] with name := "fx_Tinting" },
    tinting []]

theorem createDirectories_fresh :
    FileTree.fresh.createDirectories ({} : PackOptions).outputDirectory =
      (FileTree.fresh, .ok ()) := by
  have herror : pathError? "." = none := by decide +kernel
  have hnames : (pathNames ".").reverse = ["."] := by decide +kernel
  have hmake : FileTree.fresh.makeDirectory (FileTree.fresh.start ".") ["."] =
      .error .alreadyExists := rfl
  have hensure : FileTree.fresh.ensureDirectory (FileTree.fresh.start ".") ["."] =
      .ok FileTree.fresh := rfl
  simp [FileTree.createDirectories, FileTree.createAll, herror, hnames, hmake, hensure,
    FileTree.attempt]

theorem target?_mixedFile : ∀ decl ∈ mixedFile.types, ∀ path ∈ decl.assetPaths {},
    (FileTree.fresh.target? path).isSome := by
  have hnames : ∀ decl ∈ mixedFile.types, ∀ method ∈ decl.methods,
      ∀ stage ∈ [Stage.vertex, .fragment], (FileTree.fresh.target?
        (joinPath "." (assetFileName decl.name method.name stage))).isSome := by
    decide +kernel
  intro decl hd path hp
  obtain ⟨method, hm, stage, rfl⟩ := TypeDecl.mem_assetPaths hp
  exact hnames decl hd method hm stage (by cases stage <;> simp)

theorem writesApart_mixedFile (tree : FileTree) : mixedFile.WritesApart {} tree := by
  have hplain : ∀ decl ∈ mixedFile.types, '/' ∉ decl.name.toList ∧
      ∀ method ∈ decl.methods, '/' ∉ method.name.toList := by
    decide +kernel
  have hnames : mixedFile.types.Pairwise fun first second =>
      ∀ method ∈ first.methods, ∀ stage ∈ [Stage.vertex, .fragment],
        ∀ other ∈ second.methods, ∀ otherStage ∈ [Stage.vertex, .fragment],
          joinPath "." (assetFileName first.name method.name stage) ≠
            joinPath "." (assetFileName second.name other.name otherStage) := by
    decide +kernel
  apply SourceFile.writesApart_of_paths hplain
  refine hnames.imp fun hne path hp hp' => ?_
  obtain ⟨method, hm, stage, rfl⟩ := TypeDecl.mem_assetPaths hp
  obtain ⟨other, ho, otherStage, heq⟩ := TypeDecl.mem_assetPaths hp'
  exact hne method hm stage (by cases stage <;> simp) other ho otherStage
    (by cases otherStage <;> simp) heq

/-- The packing of the file after the first turn, which is that of the last effect. -/
def mixedFileTurn : Interleaving PackResult :=
  let prepared := (FileTree.fresh.createDirectories ".").1
  let pack := packDeclaration Resumption.access withoutWrappers {}
  let turn := (pack (tinting [])).advance.run prepared
  { tree := turn.2
    tasks := [pack { hiddenType with name := "Lighting" },
      pack { tinting [] with name := "fx_Tinting" }, turn.1] }

theorem step_mixedFileTurn :
    Interleaving.Step (.packing .fresh {} mixedFile) mixedFileTurn :=
  .advance _ [_, _] _ []

/-- The last effect of the file may take the first turn, and the end is the same. -/
theorem mixedFile_packs_alike : ∃ last values results serial,
    (packDeclarations FileTree.access withoutWrappers {} mixedFile).run FileTree.fresh =
        (.ok results, serial) ∧
      (∀ result ∈ results, result.couldWrite) ∧
      mixedFile.WritesApart {} (FileTree.fresh.createDirectories ".").1 ∧
      ReflTransGen Interleaving.Step mixedFileTurn last ∧ last.Finished values ∧
      PackReport.ofResults values =
        ((packFile FileTree.access withoutWrappers {} mixedFile).run FileTree.fresh).1 ∧
      last.tree.node? = serial.node? ∧ last.tree.read = serial.read := by
  have hserial := run_packDeclarations createDirectories_fresh mixedFile
  have hwritten := (couldWrite_packDeclarations {} mixedFile.types .fresh).mpr target?_mixedFile
  have hapart := writesApart_mixedFile (FileTree.fresh.createDirectories ".").1
  obtain ⟨last, values, hsteps, hend⟩ := mixedFileTurn.exists_finished
  have hsame := (packing_independent_of_turns hserial hwritten hapart
    (.head step_mixedFileTurn hsteps)).2 values hend
  exact ⟨last, values, _, _, hserial, hwritten, hapart, hsteps, hend, hsame⟩

end ShaderEffect
