import ShaderEffect.Command.Run
import ShaderEffect.Proofs.Build
import ShaderEffect.Proofs.Packing

/-!
# Reports of packing

What the report of a packed file says about each of its declarations, whatever the files and the
generator of wrappers do. Main statement: where packing ends with a report, it has forwarded what
validation collects, and it has skipped exactly the effects that validation finds errors in.
-/

namespace ShaderEffect

/-! ## Diagnostics -/

namespace Diagnostics

theorem errorCount_flatMap_eq_zero {α : Type} {xs : List α} {f : α → Diagnostics} :
    errorCount (xs.flatMap f) = 0 ↔ ∀ x ∈ xs, (f x).errorCount = 0 := by
  induction xs with
  | nil => simp [errorCount, count]
  | cons x rest ih =>
      rw [List.flatMap_cons, errorCount_append, Nat.add_eq_zero_iff, ih, List.forall_mem_cons]

end Diagnostics

/-- Validation reports an error exactly if the effect breaks a rule. -/
theorem errorCount_validationDiagnostics {decl : TypeDecl} {effect : Effect} :
    (validationDiagnostics decl effect).errorCount = 0 ↔ isValid decl effect = true := by
  simp only [validationDiagnostics_eq, Diagnostics.errorCount_append,
    Diagnostics.errorCount_findings, Diagnostics.errorCount_remarks, isValid_eq, Bool.and_eq_true,
    List.isEmpty_iff, ← List.length_eq_zero_iff]
  omega

namespace TypeDecl

variable {decl : TypeDecl}

/-- Whether packing a declaration writes assets: there is an effect, and it keeps all rules. -/
def isPackable (decl : TypeDecl) : Bool :=
  match decl.build.result with
  | .ok effect => isValid decl effect
  | .error _ => false

theorem isPackable_eq_true :
    decl.isPackable = true ↔
      ∃ effect, decl.build.result = .ok effect ∧ isValid decl effect = true := by
  unfold isPackable
  cases decl.build.result with
  | error error => simp
  | ok effect => simp

theorem isEffectCandidate_of_build {effect : Effect} (h : decl.build.result = .ok effect) :
    decl.isEffectCandidate = true :=
  (build_eq_ok_iff.mp h).1

/-- A build only gives up on a declaration that is no effect, or for its faults. -/
theorem build_of_isEffectCandidate (h : decl.isEffectCandidate = true) :
    (∃ effect, decl.build = { result := .ok effect, diagnostics := [] }) ∨
      ∃ faults : List Fault, faults ≠ [] ∧ decl.build = {
        result := .error (.structural decl.name faults.length)
        diagnostics := faults.map Fault.toDiagnostic } := by
  rw [build, buildInto_of_isEffectCandidate h]
  obtain ⟨effect, - | ⟨fault, rest⟩⟩ := decl.scan
  · exact .inl ⟨effect, by simp⟩
  · exact .inr ⟨fault :: rest, by simp, by simp⟩

theorem diagnostics_of_ok {effect : Effect} (h : decl.build.result = .ok effect) :
    decl.diagnostics = decl.build.diagnostics ++ validationDiagnostics decl effect := by
  rw [build] at h
  simp only [diagnostics, diagnoseInto, h, validateInto_eq_append]
  rfl

theorem diagnostics_of_error {error : BuildError} (h : decl.build.result = .error error) :
    decl.diagnostics = decl.build.diagnostics := by
  rw [build] at h
  simp only [diagnostics, diagnoseInto, h]
  rfl

/-- What is said about a declaration goes to the end of the sink, and does not depend on it. -/
theorem diagnoseInto_eq (decl : TypeDecl) (sink : Diagnostics) :
    decl.diagnoseInto sink = sink ++ decl.diagnostics := by
  cases h : decl.build.result with
  | ok effect =>
      simp only [diagnostics_of_ok h, diagnoseInto, decl.buildInto_eq sink, h,
        validateInto_eq_append, List.append_assoc]
  | error error => simp only [diagnostics_of_error h, diagnoseInto, decl.buildInto_eq sink, h]

theorem diagnostics_of_not_isEffectCandidate (h : decl.isEffectCandidate = false) :
    decl.diagnostics = [] := by
  have hb : decl.build = { result := .error (.notAnEffect decl.name), diagnostics := [] } :=
    buildInto_of_not_isEffectCandidate h []
  rw [diagnostics_of_error (congrArg BuildReport.result hb), hb]

/-- There is an error about a declaration exactly if it is an effect that cannot be packed. -/
theorem errorCount_diagnostics :
    decl.diagnostics.errorCount = 0 ↔ (decl.isEffectCandidate = true → decl.isPackable = true) := by
  cases hc : decl.isEffectCandidate with
  | false => simp [diagnostics_of_not_isEffectCandidate hc, Diagnostics.errorCount,
      Diagnostics.count]
  | true =>
      rcases build_of_isEffectCandidate hc with ⟨effect, hb⟩ | ⟨faults, hne, hb⟩
      · rw [diagnostics_of_ok (congrArg BuildReport.result hb)]
        simp [isPackable, hb, errorCount_validationDiagnostics]
      · rw [diagnostics_of_error (congrArg BuildReport.result hb)]
        simp [isPackable, hb, Diagnostics.errorCount_faults, hne]

end TypeDecl

/-- Validating a file collects the diagnostics of its declarations in their order. -/
theorem SourceFile.diagnostics_eq (file : SourceFile) :
    file.diagnostics = file.types.flatMap TypeDecl.diagnostics := by
  have hfold (decls : List TypeDecl) (sink : Diagnostics) :
      decls.foldl (fun sink decl => decl.diagnoseInto sink) sink =
        sink ++ decls.flatMap TypeDecl.diagnostics := by
    induction decls generalizing sink with
    | nil => simp
    | cons decl rest ih => rw [List.foldl_cons, ih, decl.diagnoseInto_eq, List.append_assoc,
        List.flatMap_cons]
  exact hfold file.types []

/-! ## What becomes of a declaration -/

/-- What becomes of a declaration whose packing does not fail. -/
inductive TypeDecl.Becomes (decl : TypeDecl) (options : PackOptions) : PackOutcome → Prop where
  | ignored (hc : decl.isEffectCandidate = false) : decl.Becomes options .notAnEffect
  | skipped (hc : decl.isEffectCandidate = true) (hp : decl.isPackable = false) :
    decl.Becomes options (.skipped decl.name)
  | packed {effect : Effect} {writes : List PlannedWrite} (hb : decl.build.result = .ok effect)
      (hv : isValid decl effect = true)
      (hw : effect.planWrites options effect.methods = (writes, none)) :
    decl.Becomes options (.packed ⟨effect.name, writes.map (·.shader), effect.wrapper⟩)

/-- Why packing a declaration fails: a file or the wrapper, or a method of a valid effect. -/
inductive TypeDecl.FailsWith (decl : TypeDecl) (options : PackOptions) : PackError → Prop where
  | writing (path : String) (cause : FileError) : decl.FailsWith options (.writing path cause)
  | wrapping (name cause : String) : decl.FailsWith options (.wrapping name cause)
  | planning {effect : Effect} {error : PackError} (hb : decl.build.result = .ok effect)
      (hv : isValid decl effect = true)
      (hw : (effect.planWrites options effect.methods).2 = some error) :
    decl.FailsWith options error

/-- A result of packing says what there is to say about a declaration, and what became of it or why
that failed. -/
structure TypeDecl.Explained (decl : TypeDecl) (options : PackOptions) (result : PackResult) :
    Prop where
  diagnostics : result.diagnostics = decl.diagnostics
  outcome :
    match result.outcome with
    | .ok outcome => decl.Becomes options outcome
    | .error error => decl.FailsWith options error

/-- The plan for a declaration comes with its diagnostics, and it follows from whether the
declaration is an effect and whether it can be packed. -/
theorem TypeDecl.packPlan_eq (decl : TypeDecl) (options : PackOptions) :
    (decl.packPlan options).1 = decl.diagnostics ∧
      ((decl.isEffectCandidate = false ∧ (decl.packPlan options).2 = .notAnEffect) ∨
        (decl.isEffectCandidate = true ∧ decl.isPackable = false ∧
          (decl.packPlan options).2 = .skip decl.name) ∨
        ∃ effect, decl.build.result = .ok effect ∧ isValid decl effect = true ∧
          (decl.packPlan options).2 = .write effect.name
            (effect.planWrites options effect.methods).1
            (effect.planWrites options effect.methods).2 effect.wrapper) := by
  cases hc : decl.isEffectCandidate with
  | false => simp [packPlan, hc, diagnostics_of_not_isEffectCandidate hc]
  | true =>
      rcases build_of_isEffectCandidate hc with ⟨effect, hb⟩ | ⟨faults, -, hb⟩
      · have hname : effect.name = decl.name :=
          (congrArg (·.1.name) (TypeDecl.scan_of_build (congrArg BuildReport.result hb))).symm
        rw [diagnostics_of_ok (congrArg BuildReport.result hb)]
        cases hv : isValid decl effect with
        | false => simp [packPlan, validateInto_eq_append, isPackable, hc, hb, hv, hname]
        | true => simp [packPlan, validateInto_eq_append, isPackable, hc, hb, hv]
      · rw [diagnostics_of_error (congrArg BuildReport.result hb)]
        simp [packPlan, isPackable, hc, hb]

section Runs

variable {σ : Type} {files : FileAccess (StateM σ)}
  {generate : Wrapper → StateM σ (Except String Unit)} {options : PackOptions}

theorem run_bind {α β : Type} (first : StateM σ α) (next : α → StateM σ β) (state : σ) :
    (first >>= next).run state = (next (first.run state).1).run (first.run state).2 :=
  rfl

theorem forall₂_run_mapM {α β : Type} {R : α → β → Prop} {f : α → StateM σ β}
    (h : ∀ x state, R x ((f x).run state).1) (xs : List α) (state : σ) :
    List.Forall₂ R xs ((xs.mapM f).run state).1 := by
  induction xs generalizing state with
  | nil =>
      rw [List.mapM_nil]
      exact .nil
  | cons x rest ih =>
      rw [List.mapM_cons]
      exact .cons (h x state) (ih _)

theorem writing_of_writeAll {writes : List PlannedWrite} {state : σ} {error : PackError}
    (h : ((files.writeAll writes).run state).1 = .error error) :
    ∃ path cause, error = .writing path cause := by
  induction writes generalizing state with
  | nil => cases h
  | cons write rest ih =>
      simp only [FileAccess.writeAll, run_bind] at h
      cases hw : ((files.write write.shader.path write.content).run state).1 with
      | error cause =>
          simp only [hw] at h
          cases h
          exact ⟨_, _, rfl⟩
      | ok _ =>
          simp only [hw] at h
          exact ih h

/-- Whatever the files and the generator do, a declaration either becomes what it should, or there
is a reason for the failure. -/
theorem explained_packDeclaration (decl : TypeDecl) (state : σ) :
    decl.Explained options ((packDeclaration files generate options decl).run state).1 := by
  obtain ⟨hdiagnostics, hplan⟩ := decl.packPlan_eq options
  simp only [packDeclaration, run_bind]
  refine ⟨hdiagnostics, ?_⟩
  dsimp only [StateT.run_pure]
  rcases hplan with ⟨hc, hp⟩ | ⟨hc, hpackable, hp⟩ | ⟨effect, hb, hv, hp⟩
  · rw [hp]
    exact .ignored hc
  · rw [hp]
    exact .skipped hc hpackable
  · rw [hp]
    simp only [PackPlan.execute, run_bind]
    cases hw : ((files.writeAll (effect.planWrites options effect.methods).1).run state).1 with
    | error error =>
        obtain ⟨path, cause, rfl⟩ := writing_of_writeAll hw
        exact .writing path cause
    | ok _ =>
        cases hf : (effect.planWrites options effect.methods).2 with
        | some error => exact .planning hb hv hf
        | none =>
            simp only [run_bind]
            generalize ((files.writeAll (effect.planWrites options effect.methods).1).run
              state).2 = written
            cases ((generate effect.wrapper).run written).1 with
            | error cause => exact .wrapping effect.name cause
            | ok _ => exact .packed hb hv (Prod.ext rfl hf)

end Runs

/-! ## Reports -/

namespace TypeDecl

variable {decl : TypeDecl} {options : PackOptions}

theorem Becomes.name_eq {effect : PackedEffect} (h : decl.Becomes options (.packed effect)) :
    effect.name = decl.name := by
  cases h with
  | packed hb hv hw => exact (congrArg (·.1.name) (TypeDecl.scan_of_build hb)).symm

theorem Becomes.isPackable {effect : PackedEffect} (h : decl.Becomes options (.packed effect)) :
    decl.isPackable = true := by
  cases h with
  | packed hb hv hw => exact isPackable_eq_true.mpr ⟨_, hb, hv⟩

theorem map_name_of_becomes {decls : List TypeDecl} {effects : List PackedEffect}
    (h : List.Forall₂ (fun decl effect => decl.Becomes options (.packed effect)) decls effects) :
    effects.map (·.name) = decls.map (·.name) := by
  induction h with
  | nil => rfl
  | cons hfirst _ ih => rw [List.map_cons, List.map_cons, hfirst.name_eq, ih]

/-- Only effects can be packed. -/
theorem isEffectCandidate_of_isPackable (h : decl.isPackable = true) :
    decl.isEffectCandidate = true := by
  obtain ⟨effect, hb, -⟩ := isPackable_eq_true.mp h
  exact isEffectCandidate_of_build hb

end TypeDecl

/-- The declarations of a file that are effects. -/
def SourceFile.effects (file : SourceFile) : List TypeDecl :=
  file.types.filter TypeDecl.isEffectCandidate

/-- A report has every effect among some declarations, in their order: packed if it can be packed,
and skipped otherwise. -/
structure PackReport.Covers (report : PackReport) (options : PackOptions)
    (decls : List TypeDecl) : Prop where
  packed : List.Forall₂ (fun decl effect => decl.Becomes options (.packed effect))
    (decls.filter TypeDecl.isPackable) report.packed
  skipped : report.skipped =
    ((decls.filter TypeDecl.isEffectCandidate).filter (!·.isPackable)).map (·.name)

namespace PackReport

variable {options : PackOptions}

/-- Adding what became of the next declaration. -/
theorem Covers.add {report : PackReport} {done : List TypeDecl} {decl : TypeDecl}
    {outcome : PackOutcome} (h : report.Covers options done) (hb : decl.Becomes options outcome) :
    (report.add outcome).Covers options (done ++ [decl]) := by
  obtain ⟨hpacked, hskipped⟩ := h
  cases hb with
  | ignored hc =>
      have hp : decl.isPackable = false := by
        by_contra hp
        simp [TypeDecl.isEffectCandidate_of_isPackable (by simpa using hp)] at hc
      exact ⟨by simpa [hp, PackReport.add] using hpacked,
        by simpa [hc, PackReport.add] using hskipped⟩
  | skipped hc hp =>
      exact ⟨by simpa [hp, PackReport.add] using hpacked,
        by simp [hc, hp, hskipped, PackReport.add]⟩
  | packed hb hv hw =>
      have hpacks := TypeDecl.Becomes.packed hb hv hw
      have hp := hpacks.isPackable
      have hc := TypeDecl.isEffectCandidate_of_isPackable hp
      refine ⟨?_, by simpa [hc, hp, PackReport.add] using hskipped⟩
      rw [List.filter_append, List.filter_cons_of_pos hp]
      exact List.rel_append hpacked (.cons hpacks .nil)

/-- A report that covers the declarations so far covers the others too at the end, and all that is
said about these goes to the sink. -/
theorem covers_of_addAll {decls done : List TypeDecl} {results : List PackResult}
    {sink diagnostics : Diagnostics} {start report : PackReport}
    (h : List.Forall₂ (·.Explained options ·) decls results) (hstart : start.Covers options done)
    (hr : addAll sink start results = (diagnostics, .ok report)) :
    diagnostics = sink ++ decls.flatMap TypeDecl.diagnostics ∧
      report.Covers options (done ++ decls) := by
  induction h generalizing sink start done with
  | nil =>
      cases hr
      simpa using hstart
  | @cons decl result decls results hresult _ ih =>
      obtain ⟨hdiagnostics, houtcome⟩ := hresult
      rw [addAll, Diagnostics.forward_eq] at hr
      cases ho : result.outcome with
      | error error =>
          simp only [ho] at hr
          cases hr
      | ok outcome =>
          simp only [ho] at hr houtcome
          obtain ⟨rfl, hcovers⟩ := ih (hstart.add houtcome) hr
          rw [hdiagnostics, List.append_assoc, List.flatMap_cons]
          exact ⟨rfl, by simpa using hcovers⟩

theorem covers_of_ofResults {decls : List TypeDecl} {results : List PackResult}
    {diagnostics : Diagnostics} {report : PackReport}
    (h : List.Forall₂ (·.Explained options ·) decls results)
    (hr : ofResults results = (diagnostics, .ok report)) :
    diagnostics = decls.flatMap TypeDecl.diagnostics ∧ report.Covers options decls := by
  have hstart : ({} : PackReport).Covers options [] := ⟨.nil, rfl⟩
  simpa using covers_of_addAll h hstart hr

end PackReport

section Runs

variable {σ : Type} {files : FileAccess (StateM σ)}
  {generate : Wrapper → StateM σ (Except String Unit)} {options : PackOptions} {file : SourceFile}

/-- Packing a file ends with a failure to create the directory, or with what its declarations
account for. -/
theorem packFile_cases (files : FileAccess (StateM σ))
    (generate : Wrapper → StateM σ (Except String Unit)) (options : PackOptions)
    (file : SourceFile) (state : σ) :
    (∃ cause, ((packFile files generate options file).run state).1 =
        ([], .error (.writing options.outputDirectory cause))) ∨
      ∃ results, List.Forall₂ (·.Explained options ·) file.types results ∧
        ((packFile files generate options file).run state).1 = PackReport.ofResults results := by
  have hrun : ((packFile files generate options file).run state).1 = PackReport.ofPacking
      ((packDeclarations files generate options file).run state).1 := rfl
  rw [hrun]
  simp only [packDeclarations, run_bind]
  cases hd : ((files.createDirectories options.outputDirectory).run state).1 with
  | error cause => exact .inl ⟨cause, rfl⟩
  | ok _ =>
      refine .inr ⟨_, forall₂_run_mapM explained_packDeclaration file.types _, rfl⟩

theorem covers_of_packFile {state after : σ} {diagnostics : Diagnostics} {report : PackReport}
    (h : (packFile files generate options file).run state = ((diagnostics, .ok report), after)) :
    diagnostics = file.diagnostics ∧ report.Covers options file.types := by
  rcases packFile_cases files generate options file state with
    ⟨cause, hr⟩ | ⟨results, hexplained, hr⟩
  · rw [h] at hr
    cases hr
  · rw [h] at hr
    rw [SourceFile.diagnostics_eq]
    exact PackReport.covers_of_ofResults hexplained hr.symm

/-- Where packing a file ends with a report, it has forwarded the diagnostics that validating the
file collects; the effects of the file are packed or skipped in their order; and no effect is
skipped exactly if validation finds no error, so that both commands succeed or neither does. -/
theorem validation_agrees_with_packing {state after : σ} {diagnostics : Diagnostics}
    {report : PackReport}
    (h : (packFile files generate options file).run state = ((diagnostics, .ok report), after)) :
    diagnostics = file.diagnostics ∧
      (file.diagnostics.errorCount = 0 ↔ report.skipped = []) ∧
      file.validate.succeeded = (file.describePacking diagnostics (.ok report)).succeeded ∧
      report.packed.map (·.name) = (file.effects.filter (·.isPackable)).map (·.name) ∧
      report.skipped = (file.effects.filter (!·.isPackable)).map (·.name) := by
  obtain ⟨rfl, hpacked, hskipped⟩ := covers_of_packFile h
  have herrors : file.diagnostics.errorCount = 0 ↔ report.skipped = [] := by
    rw [SourceFile.diagnostics_eq, Diagnostics.errorCount_flatMap_eq_zero, hskipped,
      List.map_eq_nil_iff, List.filter_eq_nil_iff, List.forall_mem_filter]
    simp [TypeDecl.errorCount_diagnostics]
  have hpackable : file.effects.filter (·.isPackable) = file.types.filter (·.isPackable) := by
    rw [SourceFile.effects, List.filter_filter]
    refine List.filter_congr fun decl _ => ?_
    cases hp : decl.isPackable with
    | false => rfl
    | true => simp [TypeDecl.isEffectCandidate_of_isPackable hp]
  refine ⟨rfl, herrors, ?_, by rw [TypeDecl.map_name_of_becomes hpacked, hpackable], hskipped⟩
  by_cases he : report.skipped = []
  · have hzero := herrors.mpr he
    simp [SourceFile.validate, SourceFile.describePacking, Diagnostics.hasErrors, hzero, he]
  · have hpos : 0 < file.diagnostics.errorCount := Nat.pos_of_ne_zero fun hz => he (herrors.mp hz)
    simp [SourceFile.validate, SourceFile.describePacking, Diagnostics.hasErrors, hpos, he,
      CommandOutput.failed]

end Runs

/-- An effect that does nothing; the name of its fragment shader is given. -/
def idleEffect (name shade : String) : TypeDecl where
  name
  modifiers := [.publicAccess]
  attributes := [{ name := "Effect" }]
  members := [
    .field {
      name := "Main"
      type := .named "Technique"
      initializer := some ⟨.objectCreation (.named "Technique")
        [{ value := ⟨.literal (.string "Place"), {}, {}⟩ },
          { value := ⟨.literal (.string shade), {}, {}⟩ }] none, {}, {}⟩ },
    .method {
      name := "Place"
      attributes := [{ name := "VertexShader" }]
      parameters := [
        { name := "placed", type := .named "Vector4", mode := .out
          attributes := [{ name := "Position" }] }]
      body := some [] },
    .method {
      name := shade
      attributes := [{ name := "FragmentShader" }]
      parameters := [
        { name := "color", type := .named "Vector4", mode := .out
          attributes := [{ name := "Color" }] }]
      body := some [] }]

/-- A file with a type that is no effect, an effect with a reserved name, and two effects without
errors. -/
def waterFile : SourceFile where
  types := [{ name := "Palette" }, idleEffect "Water" "Deep_Shade", idleEffect "fx_Water" "Shade",
    idleEffect "Water_Deep" "Shade"]

theorem paths_waterFile :
    ((packFile FileTree.access withoutWrappers {} waterFile).run FileTree.fresh).1.2.toOption.map
        (fun report => report.packed.map fun effect => effect.shaders.map (·.path)) =
      some [["./Water_Place.vs.bin", "./Water_Deep_Shade.fs.bin"],
        ["./Water_Deep_Place.vs.bin", "./Water_Deep_Shade.fs.bin"]] := by
  decide +kernel

theorem exists_report {σ β : Type} {f : PackReport → β} {value : β}
    {run : (Diagnostics × Except PackError PackReport) × σ}
    (h : run.1.2.toOption.map f = some value) :
    ∃ diagnostics report after, run = ((diagnostics, .ok report), after) ∧ f report = value := by
  obtain ⟨⟨diagnostics, result⟩, after⟩ := run
  cases result with
  | error error => cases h
  | ok report => exact ⟨diagnostics, report, after, rfl, Option.some.inj h⟩

theorem effects_waterFile :
    (waterFile.effects.filter (·.isPackable)).map (·.name) = ["Water", "Water_Deep"] ∧
      (waterFile.effects.filter (!·.isPackable)).map (·.name) = ["fx_Water"] := by
  decide +kernel

/-- Both commands fail on the file, because of the effect that is skipped. -/
theorem waterFile_commands_agree : ∃ report after,
    (packFile FileTree.access withoutWrappers {} waterFile).run FileTree.fresh =
        ((waterFile.diagnostics, .ok report), after) ∧
      report.packed.map (·.name) = ["Water", "Water_Deep"] ∧ report.skipped = ["fx_Water"] ∧
      waterFile.validate.succeeded = false := by
  obtain ⟨diagnostics, report, after, hr, -⟩ := exists_report paths_waterFile
  obtain ⟨rfl, -, hsucceeded, hpacked, hskipped⟩ := validation_agrees_with_packing hr
  rw [effects_waterFile.1] at hpacked
  rw [effects_waterFile.2] at hskipped
  refine ⟨report, after, hr, hpacked, hskipped, ?_⟩
  rw [hsucceeded]
  simp [SourceFile.describePacking, hskipped, CommandOutput.failed]

end ShaderEffect
