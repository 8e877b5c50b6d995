import ShaderEffect.Proofs.Node
import ShaderEffect.Proofs.Trim

/-!
# The interchange form loses nothing

Decoding undoes encoding for every source file, also when members with their defaults are left out.
Every decoder is shown to read what its encoder writes; trees are read by induction over their
nodes, with enough fuel for what is left of their JSON values.
-/

namespace ShaderEffect

open Json (Reads ofOption ofVariant)
open Json.Input (list? option? pair?)

/-! ## Parts without nodes -/

section

variable {n : Nat}

theorem reads_location (location : Location) :
    Reads n Location.ofJson? location.toJson location := by
  refine .object [] (by simp) rfl fun rest h => ?_
  refine h.required (by simp) (.uint32 location.line) fun h => ?_
  refine h.required (by simp) (.uint32 location.column) fun _ => ?_
  rfl

theorem reads_typeRef_decode (type : TypeRef) (n : Nat) :
    Reads n (TypeRef.decode (n + 1)) type.toJson type := by
  induction type generalizing n with
  | named name => exact .alternative (.string name) fun _ => rfl
  | inferred =>
      rintro json ⟨⟩ -
      rfl
  | array element ih | pointer element ih =>
      cases n with
      | zero => exact .object_zero
      | succ n =>
          refine .variant_succ fun json htrims hdepth => ?_
          change (TypeRef.decode (n + 1) { json }).map _ = _
          rw [ih n json htrims hdepth]
          rfl

theorem reads_typeRef (type : TypeRef) : Reads n TypeRef.ofJson? type.toJson type :=
  .ofDepth (reads_typeRef_decode type)

theorem reads_value (value : Value) : Reads n Value.ofJson? value.toJson value := by
  cases value with
  | bool value => exact .alternative (.bool value) fun _ => rfl
  | int value => exact .alternative (.int64 value) fun _ => rfl
  | float value => exact .alternative (.float value) fun _ => rfl
  | string value => exact .alternative (.string value) fun _ => rfl

theorem reads_strings (texts : List String) :
    Reads n (list? Json.Input.string?) (Json.ofList .string texts) texts :=
  .list fun text _ => .string text

theorem reads_methodRef (method : MethodRef) :
    Reads n MethodRef.ofJson? method.toJson method := by
  refine .object [] (by simp) rfl fun rest h => ?_
  refine h.required (by simp) (.string method.declaringType) fun h => ?_
  refine h.required (by simp) (.string method.name) fun h => ?_
  refine h.required (by simp) (reads_strings method.parameterTypes) fun h => ?_
  refine h.required (by simp) (.bool method.isStatic) fun _ => ?_
  rfl

theorem reads_name (name : String) :
    Reads n nameOfJson? (.object [("name", .string name)]) name := by
  refine .object [] (by simp) rfl fun rest h => ?_
  have hname := h.required (by simp) (.string name) (f := some) fun _ => rfl
  rw [Option.bind_fun_some] at hname
  exact hname

theorem reads_symbol (symbol : Symbol) : Reads n Symbol.ofJson? symbol.toJson symbol := by
  cases symbol with
  | field name => exact .alternative (reads_name name) fun _ => rfl
  | localVariable name => exact .alternative (reads_name name) fun _ => rfl
  | parameter name => exact .alternative (reads_name name) fun _ => rfl
  | method target => exact .alternative (reads_methodRef target) fun _ => rfl
  | property declaringType name isStatic =>
      refine .variant (.object [] (by simp) rfl fun rest h => ?_)
      refine h.required (by simp) (.string declaringType) fun h => ?_
      refine h.required (by simp) (.string name) fun h => ?_
      refine h.required (by simp) (.bool isStatic) fun _ => ?_
      rfl
  | typeName name => exact .alternative (reads_name name) fun _ => rfl

theorem TypeRef.toJson_ne_null (type : TypeRef) : type.toJson ≠ .null := by
  cases type <;> simp [TypeRef.toJson, ofVariant]

theorem reads_optionalType (type : Option TypeRef) :
    Reads n (option? TypeRef.ofJson?) (ofOption TypeRef.toJson type) type :=
  .option TypeRef.toJson_ne_null fun type _ => reads_typeRef type

theorem reads_optionalString (text : Option String) :
    Reads n (option? Json.Input.string?) (ofOption .string text) text :=
  .option (by simp) fun text _ => .string text

theorem Symbol.toJson_ne_null (symbol : Symbol) : symbol.toJson ≠ .null := by
  cases symbol <;> simp [Symbol.toJson, ofVariant]

theorem Value.toJson_ne_null (value : Value) : value.toJson ≠ .null := by
  cases value <;> simp [Value.toJson, ofVariant]

theorem reads_notes (notes : Notes) : Reads n Notes.ofJson? notes.toJson notes := by
  refine .object (Notes.toJson {}).members (by simp) rfl fun rest h => ?_
  refine h.defaulted (by simp [Notes.toJson, Json.members, ofOption])
    (fun _ => reads_optionalType notes.type) fun h => ?_
  refine h.defaulted (by simp [Notes.toJson, Json.members, ofOption])
    (fun _ => .option Symbol.toJson_ne_null fun symbol _ => reads_symbol symbol) fun h => ?_
  refine h.defaulted (by simp [Notes.toJson, Json.members, ofOption])
    (fun _ => .option Value.toJson_ne_null fun value _ => reads_value value) fun _ => ?_
  rfl

theorem reads_binaryOp (op : BinaryOp) : Reads n BinaryOp.ofJson? (.string op.tag) op :=
  .oneOf (by cases op <;> rfl)

theorem reads_unaryOp (op : UnaryOp) : Reads n UnaryOp.ofJson? (.string op.tag) op :=
  .oneOf (by cases op <;> rfl)

theorem reads_assignOp (op : AssignOp) : Reads n AssignOp.ofJson? (.string op.tag) op :=
  .oneOf (by cases op <;> rfl)

theorem reads_queryClauseKind (kind : QueryClauseKind) :
    Reads n QueryClauseKind.ofJson? (.string kind.tag) kind :=
  .oneOf (by cases kind <;> rfl)

theorem reads_passMode (mode : PassMode) : Reads n PassMode.ofJson? (.string mode.tag) mode :=
  .oneOf (by cases mode <;> rfl)

theorem reads_modifier (modifier : Modifier) :
    Reads n Modifier.ofJson? (.string modifier.tag) modifier :=
  .oneOf (by cases modifier <;> rfl)

theorem reads_memberKind (kind : MemberKind) : Reads n MemberKind.ofJson? (.string kind.tag) kind :=
  .oneOf (by cases kind <;> rfl)

end

/-! ## Defaults of parts without nodes -/

@[simp]
theorem Location.ofJson?_default : Location.ofJson? { json := Location.toJson {} } = some {} :=
  rfl

@[simp]
theorem Notes.ofJson?_default : Notes.ofJson? { json := Notes.toJson {} } = some {} :=
  rfl

@[simp]
theorem PassMode.ofJson?_default :
    PassMode.ofJson? { json := .string PassMode.byValue.tag } = some .byValue :=
  rfl

/-! ## Lists and options of nodes -/

theorem argumentsToJson_eq (arguments : List Argument) :
    argumentsToJson arguments = arguments.map Argument.toJson := by
  induction arguments with
  | nil => rfl
  | cons argument arguments ih => rw [argumentsToJson, ih, List.map_cons]

theorem exprsToJson_eq (values : List Expr) : exprsToJson values = values.map Expr.toJson := by
  induction values with
  | nil => rfl
  | cons value values ih => rw [exprsToJson, ih, List.map_cons]

theorem stmtsToJson_eq (stmts : List Stmt) : stmtsToJson stmts = stmts.map Stmt.toJson := by
  induction stmts with
  | nil => rfl
  | cons stmt stmts ih => rw [stmtsToJson, ih, List.map_cons]

theorem clausesToJson_eq (clauses : List QueryClause) :
    clausesToJson clauses = clauses.map QueryClause.toJson := by
  induction clauses with
  | nil => rfl
  | cons clause clauses ih => rw [clausesToJson, ih, List.map_cons]

theorem namedExprsToJson_eq (fields : List (String × Expr)) :
    namedExprsToJson fields =
      fields.map fun field => .array [.string field.1, field.2.toJson] := by
  induction fields with
  | nil => rfl
  | cons field fields ih => rw [namedExprsToJson, ih, List.map_cons]

theorem optionalExprToJson_eq (value : Option Expr) :
    optionalExprToJson value = ofOption Expr.toJson value := by
  cases value <;> rfl

theorem optionalStmtToJson_eq (stmt : Option Stmt) :
    optionalStmtToJson stmt = ofOption Stmt.toJson stmt := by
  cases stmt <;> rfl

theorem declaratorsToJson_eq (declarators : List VariableDeclarator) :
    declaratorsToJson declarators = declarators.map VariableDeclarator.toJson := by
  induction declarators with
  | nil => rfl
  | cons declarator declarators ih => rw [declaratorsToJson, ih, List.map_cons]

theorem labelsToJson_eq (labels : List (Option Expr)) :
    labelsToJson labels = labels.map (ofOption Expr.toJson) := by
  induction labels with
  | nil => rfl
  | cons label labels ih => rw [labelsToJson, ih, List.map_cons, optionalExprToJson_eq]

theorem sectionsToJson_eq (sections : List SwitchSection) :
    sectionsToJson sections = sections.map SwitchSection.toJson := by
  induction sections with
  | nil => rfl
  | cons part sections ih => rw [sectionsToJson, ih, List.map_cons]

theorem catchesToJson_eq (catches : List CatchClause) :
    catchesToJson catches = catches.map CatchClause.toJson := by
  induction catches with
  | nil => rfl
  | cons clause catches ih => rw [catchesToJson, ih, List.map_cons]

theorem Expr.toJson_ne_null (e : Expr) : e.toJson ≠ .null := by
  cases e
  simp [Expr.toJson]

theorem Stmt.toJson_ne_null (stmt : Stmt) : stmt.toJson ≠ .null := by
  cases stmt
  simp [Stmt.toJson]

/-! ## Nodes -/

/-- Readers find a node that is at most `n` deep. -/
def NodeReaders.Finds (read : NodeReaders) (n : Nat) : Node → Prop
  | .expr e => Reads n read.expr e.toJson e
  | .stmt stmt => Reads n read.stmt stmt.toJson stmt
  | .argument argument => Reads n read.argument? argument.toJson argument

section

variable {n : Nat} {read : NodeReaders}

theorem reads_exprs {values : List Expr} (h : ∀ e ∈ values, read.Finds n (.expr e)) :
    Reads n (list? read.expr) (.array (exprsToJson values)) values := by
  rw [exprsToJson_eq]
  exact .list h

theorem reads_stmts {stmts : List Stmt} (h : ∀ stmt ∈ stmts, read.Finds n (.stmt stmt)) :
    Reads n (list? read.stmt) (.array (stmtsToJson stmts)) stmts := by
  rw [stmtsToJson_eq]
  exact .list h

theorem reads_arguments {arguments : List Argument}
    (h : ∀ argument ∈ arguments, read.Finds n (.argument argument)) :
    Reads n (list? read.argument?) (.array (argumentsToJson arguments)) arguments := by
  rw [argumentsToJson_eq]
  exact .list h

theorem reads_optionalExpr {value : Option Expr} (h : ∀ e ∈ value, read.Finds n (.expr e)) :
    Reads n (option? read.expr) (optionalExprToJson value) value := by
  rw [optionalExprToJson_eq]
  exact .option Expr.toJson_ne_null h

theorem reads_optionalStmt {stmt : Option Stmt} (h : ∀ s ∈ stmt, read.Finds n (.stmt s)) :
    Reads n (option? read.stmt) (optionalStmtToJson stmt) stmt := by
  rw [optionalStmtToJson_eq]
  exact .option Stmt.toJson_ne_null h

theorem reads_values {values : Option (List Expr)}
    (h : ∀ e ∈ values.getD [], read.Finds n (.expr e)) :
    Reads n (option? (list? read.expr)) (valuesToJson values) values := by
  have hencode : valuesToJson values =
      ofOption (fun values => .array (exprsToJson values)) values := by
    cases values <;> rfl
  rw [hencode]
  refine .option (by simp) ?_
  rintro values rfl
  exact reads_exprs h

theorem reads_optionalStmts {stmts : Option (List Stmt)}
    (h : ∀ stmt ∈ stmts.getD [], read.Finds n (.stmt stmt)) :
    Reads n (option? (list? read.stmt)) (optionalStmtsToJson stmts) stmts := by
  have hencode : optionalStmtsToJson stmts =
      ofOption (fun stmts => .array (stmtsToJson stmts)) stmts := by
    cases stmts <;> rfl
  rw [hencode]
  refine .option (by simp) ?_
  rintro stmts rfl
  exact reads_stmts h

theorem reads_namedExprs {fields : List (String × Expr)}
    (h : ∀ field ∈ fields, read.Finds n (.expr field.2)) :
    Reads n (list? (pair? Json.Input.string? read.expr)) (.array (namedExprsToJson fields))
      fields := by
  rw [namedExprsToJson_eq]
  exact .list fun field hf => .pair (.string field.1) (h field hf)

theorem reads_queryClauses {clauses : List QueryClause}
    (h : ∀ clause ∈ clauses, read.Finds n (.expr clause.value)) :
    Reads n (list? read.queryClause?) (.array (clausesToJson clauses)) clauses := by
  rw [clausesToJson_eq]
  refine .list ?_
  rintro ⟨kind, value⟩ hc
  refine .object [] (by simp) rfl fun rest hrest => ?_
  refine hrest.required (by simp) (reads_queryClauseKind kind) fun hrest => ?_
  refine hrest.required (by simp) (h ⟨kind, value⟩ hc) fun _ => ?_
  rfl

/-- What an access path is made of. -/
theorem reads_memberOf {target : Expr} (h : read.Finds n (.expr target)) (member : String) :
    Reads n read.memberOf? (.object [("target", target.toJson), ("member", .string member)])
      (target, member) := by
  refine .object [] (by simp) rfl fun rest hrest => ?_
  refine hrest.required (by simp) h fun hrest => ?_
  refine hrest.required (by simp) (.string member) fun _ => ?_
  rfl

theorem reads_function (parameters : List String) {body : List Stmt}
    (h : ∀ stmt ∈ body, read.Finds n (.stmt stmt)) :
    Reads n read.function?
      (.object
        [("parameters", Json.ofList .string parameters), ("body", .array (stmtsToJson body))])
      (parameters, body) := by
  refine .object [] (by simp) rfl fun rest hrest => ?_
  refine hrest.required (by simp) (reads_strings parameters) fun hrest => ?_
  refine hrest.required (by simp) (reads_stmts h) fun _ => ?_
  rfl

theorem reads_typeTest {operand : Expr} (h : read.Finds n (.expr operand)) (type : TypeRef) :
    Reads n read.typeTest? (.object [("operand", operand.toJson), ("ty", type.toJson)])
      (operand, type) := by
  refine .object [] (by simp) rfl fun rest hrest => ?_
  refine hrest.required (by simp) h fun hrest => ?_
  refine hrest.required (by simp) (reads_typeRef type) fun _ => ?_
  rfl

theorem reads_exprKind (kind : ExprKind) (h : ∀ part ∈ kind.parts, read.Finds n part) :
    Reads n read.exprKind? kind.toJson kind := by
  cases kind with
  | literal value => exact .alternative (reads_value value) fun _ => rfl
  | identifier name => exact .alternative (.string name) fun _ => rfl
  | memberAccess target member =>
      have htarget := h (.expr target) (by simp [ExprKind.parts])
      exact .alternative_pair (reads_memberOf htarget member) fun _ => rfl
  | pointerMemberAccess target member =>
      have htarget := h (.expr target) (by simp [ExprKind.parts])
      exact .alternative_pair (reads_memberOf htarget member) fun _ => rfl
  | index target position =>
      have htarget := h (.expr target) (by simp [ExprKind.parts])
      have hposition := h (.expr position) (by simp [ExprKind.parts])
      refine .variant (.object [] (by simp) rfl fun rest hrest => ?_)
      refine hrest.required (by simp) htarget fun hrest => ?_
      refine hrest.required (by simp) hposition fun _ => ?_
      rfl
  | invocation callee arguments =>
      have hcallee := h (.expr callee) (by simp [ExprKind.parts])
      have harguments : ∀ argument ∈ arguments, read.Finds n (.argument argument) :=
        fun argument ha => h _ (by simp [ExprKind.parts, ha])
      refine .variant (.object [] (by simp) rfl fun rest hrest => ?_)
      refine hrest.required (by simp) hcallee fun hrest => ?_
      refine hrest.required (by simp) (reads_arguments harguments) fun _ => ?_
      rfl
  | objectCreation type arguments initializer =>
      have harguments : ∀ argument ∈ arguments, read.Finds n (.argument argument) :=
        fun argument ha => h _ (by simp [ExprKind.parts, ha])
      have hinitializer : ∀ e ∈ initializer.getD [], read.Finds n (.expr e) :=
        fun e he => h _ (by simp [ExprKind.parts, he])
      refine .variant (.object [("initializer", .null)] (by simp) rfl fun rest hrest => ?_)
      refine hrest.required (by simp) (reads_typeRef type) fun hrest => ?_
      refine hrest.required (by simp) (reads_arguments harguments) fun hrest => ?_
      refine hrest.optional (by simp) (reads_values hinitializer) fun _ => ?_
      rfl
  | arrayCreation element size initializer =>
      have hsize : ∀ e ∈ size, read.Finds n (.expr e) :=
        fun e he => h _ (by simp [ExprKind.parts, Option.mem_def.mp he])
      have hinitializer : ∀ e ∈ initializer.getD [], read.Finds n (.expr e) :=
        fun e he => h _ (by simp [ExprKind.parts, he])
      refine .variant
        (.object [("size", .null), ("initializer", .null)] (by simp) rfl fun rest hrest => ?_)
      refine hrest.required (by simp) (reads_typeRef element) fun hrest => ?_
      refine hrest.optional (by simp) (reads_optionalExpr hsize) fun hrest => ?_
      refine hrest.optional (by simp) (reads_values hinitializer) fun _ => ?_
      rfl
  | arrayInitializer values =>
      have hvalues : ∀ e ∈ values, read.Finds n (.expr e) :=
        fun e he => h _ (by simp [ExprKind.parts, he])
      exact .alternative (reads_exprs hvalues) fun _ => rfl
  | interpolatedString values =>
      have hvalues : ∀ e ∈ values, read.Finds n (.expr e) :=
        fun e he => h _ (by simp [ExprKind.parts, he])
      exact .alternative (reads_exprs hvalues) fun _ => rfl
  | binary op lhs rhs =>
      have hlhs := h (.expr lhs) (by simp [ExprKind.parts])
      have hrhs := h (.expr rhs) (by simp [ExprKind.parts])
      refine .variant (.object [] (by simp) rfl fun rest hrest => ?_)
      refine hrest.required (by simp) (reads_binaryOp op) fun hrest => ?_
      refine hrest.required (by simp) hlhs fun hrest => ?_
      refine hrest.required (by simp) hrhs fun _ => ?_
      rfl
  | unary op operand =>
      have hoperand := h (.expr operand) (by simp [ExprKind.parts])
      refine .variant (.object [] (by simp) rfl fun rest hrest => ?_)
      refine hrest.required (by simp) (reads_unaryOp op) fun hrest => ?_
      refine hrest.required (by simp) hoperand fun _ => ?_
      rfl
  | assignment op target value =>
      have htarget := h (.expr target) (by simp [ExprKind.parts])
      have hvalue := h (.expr value) (by simp [ExprKind.parts])
      refine .variant (.object [] (by simp) rfl fun rest hrest => ?_)
      refine hrest.required (by simp) (reads_assignOp op) fun hrest => ?_
      refine hrest.required (by simp) htarget fun hrest => ?_
      refine hrest.required (by simp) hvalue fun _ => ?_
      rfl
  | conditional condition thenValue elseValue =>
      have hcondition := h (.expr condition) (by simp [ExprKind.parts])
      have hthen := h (.expr thenValue) (by simp [ExprKind.parts])
      have helse := h (.expr elseValue) (by simp [ExprKind.parts])
      refine .variant (.object [] (by simp) rfl fun rest hrest => ?_)
      refine hrest.required (by simp) hcondition fun hrest => ?_
      refine hrest.required (by simp) hthen fun hrest => ?_
      refine hrest.required (by simp) helse fun _ => ?_
      rfl
  | cast type operand =>
      have hoperand := h (.expr operand) (by simp [ExprKind.parts])
      refine .variant (.object [] (by simp) rfl fun rest hrest => ?_)
      refine hrest.required (by simp) (reads_typeRef type) fun hrest => ?_
      refine hrest.required (by simp) hoperand fun _ => ?_
      rfl
  | stackAllocation element size =>
      have hsize := h (.expr size) (by simp [ExprKind.parts])
      refine .variant (.object [] (by simp) rfl fun rest hrest => ?_)
      refine hrest.required (by simp) (reads_typeRef element) fun hrest => ?_
      refine hrest.required (by simp) hsize fun _ => ?_
      rfl
  | parenthesized operand | addressOf operand | dereference operand | await operand
  | checked operand | unchecked operand | throwing operand =>
      have hoperand := h (.expr operand) (by simp [ExprKind.parts])
      exact .alternative hoperand fun _ => rfl
  | thisReference | baseReference | nullReference =>
      rintro json ⟨⟩ -
      rfl
  | anonymousObject fields =>
      have hfields : ∀ field ∈ fields, read.Finds n (.expr field.2) :=
        fun field hf => h _ (List.mem_map.mpr ⟨field, hf, rfl⟩)
      exact .alternative (reads_namedExprs hfields) fun _ => rfl
  | lambda parameters body =>
      have hbody : ∀ stmt ∈ body, read.Finds n (.stmt stmt) :=
        fun stmt hs => h _ (by simp [ExprKind.parts, hs])
      exact .alternative_pair (reads_function parameters hbody) fun _ => rfl
  | anonymousMethod parameters body =>
      have hbody : ∀ stmt ∈ body, read.Finds n (.stmt stmt) :=
        fun stmt hs => h _ (by simp [ExprKind.parts, hs])
      exact .alternative_pair (reads_function parameters hbody) fun _ => rfl
  | sizeOfType type => exact .alternative (reads_typeRef type) fun _ => rfl
  | typeOfType type => exact .alternative (reads_typeRef type) fun _ => rfl
  | defaultValue type => exact .alternative (reads_optionalType type) fun _ => rfl
  | asType operand type =>
      have hoperand := h (.expr operand) (by simp [ExprKind.parts])
      exact .alternative_pair (reads_typeTest hoperand type) fun _ => rfl
  | isType operand type =>
      have hoperand := h (.expr operand) (by simp [ExprKind.parts])
      exact .alternative_pair (reads_typeTest hoperand type) fun _ => rfl
  | query clauses =>
      have hclauses : ∀ clause ∈ clauses, read.Finds n (.expr clause.value) :=
        fun clause hc => h _ (List.mem_map.mpr ⟨clause, hc, rfl⟩)
      exact .alternative (reads_queryClauses hclauses) fun _ => rfl

theorem reads_declaration {declaration : VariableDeclaration}
    (h : ∀ part ∈ declaration.parts, read.Finds n part) :
    Reads n read.declaration? declaration.toJson declaration := by
  obtain ⟨type, declarators⟩ := declaration
  have hdeclarators : Reads n (list? read.declarator?) (.array (declaratorsToJson declarators))
      declarators := by
    rw [declaratorsToJson_eq]
    refine .list ?_
    rintro ⟨name, initializer, location⟩ hd
    have hinitializer : ∀ e ∈ initializer, read.Finds n (.expr e) := by
      intro e he
      exact h _ (List.mem_map.mpr ⟨e, List.mem_filterMap.mpr ⟨_, hd, he⟩, rfl⟩)
    refine .object [("initializer", .null), ("location", Location.toJson {})] (by simp) rfl
      fun rest hrest => ?_
    refine hrest.required (by simp) (.string name) fun hrest => ?_
    refine hrest.optional (by simp) (reads_optionalExpr hinitializer) fun hrest => ?_
    refine hrest.defaulted (by simp) (fun _ => reads_location location) fun _ => ?_
    rfl
  refine .object [] (by simp) rfl fun rest hrest => ?_
  refine hrest.required (by simp) (reads_typeRef type) fun hrest => ?_
  refine hrest.required (by simp) hdeclarators fun _ => ?_
  rfl

theorem reads_switchSection {labels : List (Option Expr)} {body : List Stmt}
    (hlabels : ∀ e ∈ labels.filterMap id, read.Finds n (.expr e))
    (hbody : ∀ stmt ∈ body, read.Finds n (.stmt stmt)) :
    Reads n read.switchSection? (SwitchSection.toJson ⟨labels, body⟩) ⟨labels, body⟩ := by
  have hread : Reads n (list? (option? read.expr)) (.array (labelsToJson labels)) labels := by
    rw [labelsToJson_eq]
    refine .list fun label hl => .option Expr.toJson_ne_null ?_
    rintro e rfl
    exact hlabels e (List.mem_filterMap.mpr ⟨_, hl, rfl⟩)
  refine .object [] (by simp) rfl fun rest hrest => ?_
  refine hrest.required (by simp) hread fun hrest => ?_
  refine hrest.required (by simp) (reads_stmts hbody) fun _ => ?_
  rfl

theorem reads_catchClause (type : Option TypeRef) {body : List Stmt}
    (hbody : ∀ stmt ∈ body, read.Finds n (.stmt stmt)) :
    Reads n read.catchClause? (CatchClause.toJson ⟨type, body⟩) ⟨type, body⟩ := by
  refine .object [("ty", .null)] (by simp) rfl fun rest hrest => ?_
  refine hrest.optional (by simp) (reads_optionalType type) fun hrest => ?_
  refine hrest.required (by simp) (reads_stmts hbody) fun _ => ?_
  rfl

theorem reads_stmtKind (kind : StmtKind) (h : ∀ part ∈ kind.parts, read.Finds n part) :
    Reads n read.stmtKind? kind.toJson kind := by
  cases kind with
  | block body | checkedBlock body | uncheckedBlock body | unsafeBlock body =>
      have hbody : ∀ stmt ∈ body, read.Finds n (.stmt stmt) :=
        fun stmt hs => h _ (by simp [StmtKind.parts, hs])
      exact .alternative (reads_stmts hbody) fun _ => rfl
  | empty | breakLoop | continueLoop =>
      rintro json ⟨⟩ -
      rfl
  | expression value =>
      have hvalue := h (.expr value) (by simp [StmtKind.parts])
      exact .alternative hvalue fun _ => rfl
  | declaration locals => exact .alternative (reads_declaration h) fun _ => rfl
  | ifElse condition thenBranch elseBranch =>
      have hcondition := h (.expr condition) (by simp [StmtKind.parts])
      have hthen := h (.stmt thenBranch) (by simp [StmtKind.parts])
      have helse : ∀ stmt ∈ elseBranch, read.Finds n (.stmt stmt) :=
        fun stmt hs => h _ (by simp [StmtKind.parts, Option.mem_def.mp hs])
      refine .variant (.object [("else_branch", .null)] (by simp) rfl fun rest hrest => ?_)
      refine hrest.required (by simp) hcondition fun hrest => ?_
      refine hrest.required (by simp) hthen fun hrest => ?_
      refine hrest.optional (by simp) (reads_optionalStmt helse) fun _ => ?_
      rfl
  | whileLoop condition body =>
      have hcondition := h (.expr condition) (by simp [StmtKind.parts])
      have hbody := h (.stmt body) (by simp [StmtKind.parts])
      refine .variant (.object [] (by simp) rfl fun rest hrest => ?_)
      refine hrest.required (by simp) hcondition fun hrest => ?_
      refine hrest.required (by simp) hbody fun _ => ?_
      rfl
  | doWhileLoop body condition =>
      have hcondition := h (.expr condition) (by simp [StmtKind.parts])
      have hbody := h (.stmt body) (by simp [StmtKind.parts])
      refine .variant (.object [] (by simp) rfl fun rest hrest => ?_)
      refine hrest.required (by simp) hbody fun hrest => ?_
      refine hrest.required (by simp) hcondition fun _ => ?_
      rfl
  | forLoop initializers condition increments body =>
      have hinitializers : ∀ stmt ∈ initializers, read.Finds n (.stmt stmt) :=
        fun stmt hs => h _ (by simp [StmtKind.parts, hs])
      have hcondition : ∀ e ∈ condition, read.Finds n (.expr e) :=
        fun e he => h _ (by simp [StmtKind.parts, Option.mem_def.mp he])
      have hincrements : ∀ e ∈ increments, read.Finds n (.expr e) :=
        fun e he => h _ (by simp [StmtKind.parts, he])
      have hbody := h (.stmt body) (by simp [StmtKind.parts])
      refine .variant (.object [("condition", .null)] (by simp) rfl fun rest hrest => ?_)
      refine hrest.required (by simp) (reads_stmts hinitializers) fun hrest => ?_
      refine hrest.optional (by simp) (reads_optionalExpr hcondition) fun hrest => ?_
      refine hrest.required (by simp) (reads_exprs hincrements) fun hrest => ?_
      refine hrest.required (by simp) hbody fun _ => ?_
      rfl
  | returning value | throwing value | yielding value =>
      have hvalue : ∀ e ∈ value, read.Finds n (.expr e) :=
        fun e he => h _ (by simp [StmtKind.parts, Option.mem_def.mp he])
      exact .alternative (reads_optionalExpr hvalue) fun _ => rfl
  | forEachLoop type name collection body =>
      have hcollection := h (.expr collection) (by simp [StmtKind.parts])
      have hbody := h (.stmt body) (by simp [StmtKind.parts])
      refine .variant (.object [] (by simp) rfl fun rest hrest => ?_)
      refine hrest.required (by simp) (reads_typeRef type) fun hrest => ?_
      refine hrest.required (by simp) (.string name) fun hrest => ?_
      refine hrest.required (by simp) hcollection fun hrest => ?_
      refine hrest.required (by simp) hbody fun _ => ?_
      rfl
  | switchOn value sections =>
      have hvalue := h (.expr value) (by simp [StmtKind.parts])
      have hsections : Reads n (list? read.switchSection?) (.array (sectionsToJson sections))
          sections := by
        rw [sectionsToJson_eq]
        refine .list ?_
        rintro ⟨labels, body⟩ hsection
        refine reads_switchSection (fun e he => h _ ?_) fun stmt hs => h _ ?_
        · exact List.mem_cons_of_mem _ (List.mem_flatMap.mpr ⟨_, hsection, by simp_all⟩)
        · exact List.mem_cons_of_mem _ (List.mem_flatMap.mpr ⟨_, hsection, by simp_all⟩)
      refine .variant (.object [] (by simp) rfl fun rest hrest => ?_)
      refine hrest.required (by simp) hvalue fun hrest => ?_
      refine hrest.required (by simp) hsections fun _ => ?_
      rfl
  | fixedBlock locals body =>
      have hlocals : ∀ part ∈ locals.parts, read.Finds n part :=
        fun part hp => h _ (by simp [StmtKind.parts, hp])
      have hbody := h (.stmt body) (by simp [StmtKind.parts])
      refine .variant (.object [] (by simp) rfl fun rest hrest => ?_)
      refine hrest.required (by simp) (reads_declaration hlocals) fun hrest => ?_
      refine hrest.required (by simp) hbody fun _ => ?_
      rfl
  | lockBlock value body =>
      have hvalue := h (.expr value) (by simp [StmtKind.parts])
      have hbody := h (.stmt body) (by simp [StmtKind.parts])
      refine .variant (.object [] (by simp) rfl fun rest hrest => ?_)
      refine hrest.required (by simp) hvalue fun hrest => ?_
      refine hrest.required (by simp) hbody fun _ => ?_
      rfl
  | tryBlock body catches finalizer =>
      have hbody : ∀ stmt ∈ body, read.Finds n (.stmt stmt) :=
        fun stmt hs => h _ (by simp [StmtKind.parts, hs])
      have hcatches : Reads n (list? read.catchClause?) (.array (catchesToJson catches))
          catches := by
        rw [catchesToJson_eq]
        refine .list ?_
        rintro ⟨type, handler⟩ hclause
        refine reads_catchClause type fun stmt hs => h _ ?_
        simp only [StmtKind.parts, List.mem_append, List.mem_flatMap]
        exact .inl (.inr ⟨_, hclause, List.mem_map.mpr ⟨stmt, hs, rfl⟩⟩)
      have hfinalizer : ∀ stmt ∈ finalizer.getD [], read.Finds n (.stmt stmt) :=
        fun stmt hs => h _ (by simp [StmtKind.parts, hs])
      refine .variant (.object [("finally", .null)] (by simp) rfl fun rest hrest => ?_)
      refine hrest.required (by simp) (reads_stmts hbody) fun hrest => ?_
      refine hrest.required (by simp) hcatches fun hrest => ?_
      refine hrest.optional (by simp) (reads_optionalStmts hfinalizer) fun _ => ?_
      rfl
  | usingBlock resource body =>
      have hresource := h (.stmt resource) (by simp [StmtKind.parts])
      have hbody := h (.stmt body) (by simp [StmtKind.parts])
      refine .variant (.object [] (by simp) rfl fun rest hrest => ?_)
      refine hrest.required (by simp) hresource fun hrest => ?_
      refine hrest.required (by simp) hbody fun _ => ?_
      rfl
  | goto label => exact .alternative (.string label) fun _ => rfl
  | labeled label body =>
      have hbody := h (.stmt body) (by simp [StmtKind.parts])
      refine .variant (.object [] (by simp) rfl fun rest hrest => ?_)
      refine hrest.required (by simp) (.string label) fun hrest => ?_
      refine hrest.required (by simp) hbody fun _ => ?_
      rfl
  | localFunction name body =>
      have hbody : ∀ stmt ∈ body, read.Finds n (.stmt stmt) :=
        fun stmt hs => h _ (by simp [StmtKind.parts, hs])
      refine .variant (.object [] (by simp) rfl fun rest hrest => ?_)
      refine hrest.required (by simp) (.string name) fun hrest => ?_
      refine hrest.required (by simp) (reads_stmts hbody) fun _ => ?_
      rfl
  | preprocessor text => exact .alternative (.string text) fun _ => rfl

theorem reads_argument {argument : Argument} (h : read.Finds n (.expr argument.value)) :
    Reads n read.argument? argument.toJson argument := by
  obtain ⟨name, mode, value⟩ := argument
  refine .object [("name", .null), ("modifier", .string PassMode.byValue.tag)] (by simp) rfl
    fun rest hrest => ?_
  refine hrest.optional (by simp) (reads_optionalString name) fun hrest => ?_
  refine hrest.defaulted (by simp) (fun _ => reads_passMode mode) fun hrest => ?_
  refine hrest.required (by simp) h fun _ => ?_
  rfl

/-- A node is one object deeper than its parts. -/
theorem finds_expr {e : Expr} (h : ∀ part ∈ e.kind.parts, read.Finds n part) :
    Reads (n + 1) read.expr? e.toJson e := by
  obtain ⟨kind, location, notes⟩ := e
  refine .object_succ [("location", Location.toJson {}), ("annotation", Notes.toJson {})] (by simp)
    rfl fun rest hrest => ?_
  refine hrest.required (by simp) (reads_exprKind kind h) fun hrest => ?_
  refine hrest.defaulted (by simp) (fun _ => reads_location location) fun hrest => ?_
  refine hrest.defaulted (by simp) (fun _ => reads_notes notes) fun _ => ?_
  rfl

theorem finds_stmt {stmt : Stmt} (h : ∀ part ∈ stmt.kind.parts, read.Finds n part) :
    Reads (n + 1) read.stmt? stmt.toJson stmt := by
  obtain ⟨kind, location⟩ := stmt
  refine .object_succ [("location", Location.toJson {})] (by simp) rfl fun rest hrest => ?_
  refine hrest.required (by simp) (reads_stmtKind kind h) fun hrest => ?_
  refine hrest.defaulted (by simp) (fun _ => reads_location location) fun _ => ?_
  rfl

end

/-- Readers with one unit of fuel for every level find all nodes. -/
theorem finds_upTo (node : Node) (n : Nat) : (NodeReaders.upTo (n + 1)).Finds n node := by
  induction node using Node.induction generalizing n with
  | step node ih =>
      cases node with
      | expr e =>
          cases n with
          | zero =>
              obtain ⟨kind, location, notes⟩ := e
              exact .object_zero
          | succ n => exact finds_expr fun part hp => ih part hp n
      | stmt stmt =>
          cases n with
          | zero =>
              obtain ⟨kind, location⟩ := stmt
              exact .object_zero
          | succ n => exact finds_stmt fun part hp => ih part hp n
      | argument argument =>
          exact reads_argument (ih (.expr argument.value) (by simp [Node.parts]) n)

/-! ## Declarations -/

section

variable {n : Nat}

theorem reads_expr (e : Expr) : Reads n Expr.ofJson? e.toJson e :=
  .ofDepth (finds_upTo (.expr e))

theorem reads_stmt (stmt : Stmt) : Reads n Stmt.ofJson? stmt.toJson stmt :=
  .ofDepth (finds_upTo (.stmt stmt))

theorem reads_attribute (attr : Attribute) : Reads n Attribute.ofJson? attr.toJson attr := by
  have hargument : ∀ argument : AttributeArgument, ∀ n,
      Reads n AttributeArgument.ofJson? argument.toJson argument := by
    intro argument n
    refine .object [("name", .null)] (by simp) rfl fun rest h => ?_
    refine h.optional (by simp) (reads_optionalString argument.name) fun h => ?_
    refine h.required (by simp) (reads_expr argument.value) fun _ => ?_
    rfl
  refine .object [("arguments", .array []), ("location", Location.toJson {})] (by simp) rfl
    fun rest h => ?_
  refine h.required (by simp) (.string attr.name) fun h => ?_
  refine h.defaulted (by simp) (fun n => .list fun argument _ => hargument argument n) fun h => ?_
  refine h.defaulted (by simp) (fun _ => reads_location attr.location) fun _ => ?_
  rfl

theorem reads_attributes (attributes : List Attribute) :
    Reads n (list? Attribute.ofJson?) (Json.ofList Attribute.toJson attributes) attributes :=
  .list fun attr _ => reads_attribute attr

theorem reads_modifiers (modifiers : List Modifier) :
    Reads n (list? Modifier.ofJson?) (Json.ofList (.string ·.tag) modifiers) modifiers :=
  .list fun modifier _ => reads_modifier modifier

theorem reads_otherMember (member : OtherMember) :
    Reads n OtherMember.ofJson? member.toJson member := by
  refine .object [("location", Location.toJson {})] (by simp) rfl fun rest h => ?_
  refine h.required (by simp) (reads_memberKind member.kind) fun h => ?_
  refine h.required (by simp) (.string member.name) fun h => ?_
  refine h.defaulted (by simp) (fun _ => reads_location member.location) fun _ => ?_
  rfl

@[simp]
theorem TypeRef.ofJson?_inferred :
    TypeRef.ofJson? { json := TypeRef.inferred.toJson } = some .inferred :=
  rfl

@[simp]
theorem TypeRef.ofJson?_void :
    TypeRef.ofJson? { json := (TypeRef.named "void").toJson } = some (.named "void") :=
  rfl

theorem reads_field (field : FieldDecl) : Reads n FieldDecl.ofJson? field.toJson field := by
  refine .object (FieldDecl.toJson {}).members (by simp) rfl fun rest h => ?_
  simp only [FieldDecl.toJson, Json.members, ofOption, Json.ofList, List.map_nil] at h
  refine h.defaulted (by simp) (fun _ => .string field.name) fun h => ?_
  refine h.defaulted (by simp) (fun _ => reads_typeRef field.type) fun h => ?_
  refine h.defaulted (by simp) (fun _ => reads_modifiers field.modifiers) fun h => ?_
  refine h.defaulted (by simp) (fun _ => reads_attributes field.attributes) fun h => ?_
  refine h.defaulted (by simp)
    (fun _ => .option Expr.toJson_ne_null fun e _ => reads_expr e) fun h => ?_
  refine h.defaulted (by simp) (fun _ => reads_strings field.documentation) fun h => ?_
  refine h.defaulted (by simp) (fun _ => reads_location field.location) fun _ => ?_
  rfl

theorem reads_parameter (parameter : ParamDecl) :
    Reads n ParamDecl.ofJson? parameter.toJson parameter := by
  refine .object [("modifier", .string PassMode.byValue.tag), ("attributes", .array []),
    ("location", Location.toJson {})] (by simp) rfl fun rest h => ?_
  refine h.required (by simp) (.string parameter.name) fun h => ?_
  refine h.required (by simp) (reads_typeRef parameter.type) fun h => ?_
  refine h.defaulted (by simp) (fun _ => reads_passMode parameter.mode) fun h => ?_
  refine h.defaulted (by simp) (fun _ => reads_attributes parameter.attributes) fun h => ?_
  refine h.defaulted (by simp) (fun _ => reads_location parameter.location) fun _ => ?_
  rfl

theorem reads_body (body : Option (List Stmt)) :
    Reads n (option? (list? Stmt.ofJson?)) (ofOption (Json.ofList Stmt.toJson) body) body :=
  .option (by simp [Json.ofList]) fun _ _ => .list fun stmt _ => reads_stmt stmt

theorem reads_method (method : MethodDecl) : Reads n MethodDecl.ofJson? method.toJson method := by
  refine .object (MethodDecl.toJson {}).members (by simp) rfl fun rest h => ?_
  simp only [MethodDecl.toJson, Json.members, ofOption, Json.ofList, List.map_nil] at h
  refine h.defaulted (by simp) (fun _ => .string method.name) fun h => ?_
  refine h.defaulted (by simp) (fun _ => reads_modifiers method.modifiers) fun h => ?_
  refine h.defaulted (by simp) (fun _ => reads_attributes method.attributes) fun h => ?_
  refine h.defaulted (by simp) (fun _ => reads_strings method.typeParameters) fun h => ?_
  refine h.defaulted (by simp)
    (fun _ => .list fun parameter _ => reads_parameter parameter) fun h => ?_
  refine h.defaulted (by simp) (fun _ => reads_typeRef method.returnType) fun h => ?_
  refine h.defaulted (by simp) (fun _ => reads_body method.body) fun h => ?_
  refine h.defaulted (by simp) (fun _ => reads_strings method.documentation) fun h => ?_
  refine h.defaulted (by simp) (fun _ => reads_location method.location) fun _ => ?_
  rfl

theorem reads_member (member : Member) : Reads n Member.ofJson? member.toJson member := by
  cases member with
  | field field => exact .alternative (reads_field field) fun _ => rfl
  | method method => exact .alternative (reads_method method) fun _ => rfl
  | other member => exact .alternative (reads_otherMember member) fun _ => rfl

theorem reads_typeDecl (decl : TypeDecl) : Reads n TypeDecl.ofJson? decl.toJson decl := by
  refine .object (TypeDecl.toJson {}).members (by simp) rfl fun rest h => ?_
  simp only [TypeDecl.toJson, Json.members, ofOption, Json.ofList, List.map_nil] at h
  refine h.defaulted (by simp) (fun _ => .string decl.name) fun h => ?_
  refine h.defaulted (by simp) (fun _ => reads_optionalString decl.enclosingNamespace) fun h => ?_
  refine h.defaulted (by simp) (fun _ => reads_strings decl.documentation) fun h => ?_
  refine h.defaulted (by simp) (fun _ => reads_modifiers decl.modifiers) fun h => ?_
  refine h.defaulted (by simp) (fun _ => .list fun type _ => reads_typeRef type) fun h => ?_
  refine h.defaulted (by simp) (fun _ => reads_attributes decl.attributes) fun h => ?_
  refine h.defaulted (by simp) (fun _ => reads_strings decl.typeParameters) fun h => ?_
  refine h.defaulted (by simp) (fun _ => .list fun member _ => reads_member member) fun h => ?_
  refine h.defaulted (by simp) (fun _ => reads_location decl.location) fun _ => ?_
  rfl

theorem reads_sourceFile (file : SourceFile) :
    Reads n SourceFile.ofJson? file.toJson file := by
  refine .object [] (by simp) rfl fun rest h => ?_
  refine h.required (by simp) (.string file.path) fun h => ?_
  refine h.required (by simp) (.list fun decl _ => reads_typeDecl decl) fun _ => ?_
  rfl

end

/-- The interchange form of a source file loses nothing: the complete form decodes to the file, and
so does every form in which members are left out that have their default. -/
theorem sourceFile_survives_json (file : SourceFile) :
    Json.decode? SourceFile.ofJson? file.toJson = some file ∧
      ∀ json, Json.Trims file.toJson json → Json.decode? SourceFile.ofJson? json = some file := by
  have hread : ∀ json, Json.Trims file.toJson json →
      Json.decode? SourceFile.ofJson? json = some file :=
    fun json htrims => reads_sourceFile file json htrims (Nat.le_refl _)
  exact ⟨hread file.toJson (.refl _), hread⟩

/-- A file with one method that returns at once. -/
def idleFile : SourceFile :=
  { path := "idle"
    types := [{ name := "Idle"
                members := [.method { name := "Run", body := some [⟨.returning none, {}⟩] }] }] }

/-- The file with nothing but what is not a default. -/
def idleFileJson : Json :=
  let stmt := Json.object [("kind", ofVariant "Return" .null)]
  let method := Json.object [("name", .string "Run"), ("body", .array [stmt])]
  let decl := Json.object
    [("name", .string "Idle"), ("members", .array [ofVariant "Method" method])]
  .object [("path", .string "idle"), ("types", .array [decl])]

theorem trims_idleFile : Json.Trims idleFile.toJson idleFileJson := by
  have hstmt : Json.Trims (Stmt.toJson ⟨.returning none, {}⟩)
      (.object [("kind", ofVariant "Return" .null)]) :=
    .object (.keep _ (.refl _) (.drop (.head _) (.nil _)))
  have hmethod : Json.Trims
      (MethodDecl.toJson { name := "Run", body := some [⟨.returning none, {}⟩] })
      (.object [("name", .string "Run"),
        ("body", .array [.object [("kind", ofVariant "Return" .null)]])]) := by
    have hdefaults := List.Subset.refl (MethodDecl.toJson {}).members
    simp only [MethodDecl.toJson, Json.members, List.cons_subset] at hdefaults
    obtain ⟨-, hmodifiers, hattributes, htypes, hparameters, hreturn, -, hdoc, hlocation, -⟩ :=
      hdefaults
    exact .object (.keep _ (.refl _) (.drop hmodifiers (.drop hattributes (.drop htypes
      (.drop hparameters (.drop hreturn (.keep _ (.array (.cons hstmt .nil))
        (.drop hdoc (.drop hlocation (.nil _))))))))))
  have hdecl : Json.Trims (TypeDecl.toJson {
        name := "Idle"
        members := [.method { name := "Run", body := some [⟨.returning none, {}⟩] }] })
      (.object [("name", .string "Idle"), ("members", .array [ofVariant "Method" (.object [
        ("name", .string "Run"),
        ("body", .array [.object [("kind", ofVariant "Return" .null)]])])])]) := by
    have hdefaults := List.Subset.refl (TypeDecl.toJson {}).members
    simp only [TypeDecl.toJson, Json.members, List.cons_subset] at hdefaults
    obtain ⟨-, hnamespace, hdoc, hmodifiers, hbases, hattributes, htypes, -, hlocation, -⟩ :=
      hdefaults
    exact .object (.keep _ (.refl _) (.drop hnamespace (.drop hdoc (.drop hmodifiers
      (.drop hbases (.drop hattributes (.drop htypes (.keep _
        (.array (.cons (.object (.keep _ hmethod (.nil _))) .nil))
        (.drop hlocation (.nil _))))))))))
  exact .object (.keep _ (.refl _) (.keep _ (.array (.cons hdecl .nil)) (.nil _)))

theorem idleFile_survives_json :
    Json.Trims idleFile.toJson idleFileJson ∧
      Json.decode? SourceFile.ofJson? idleFileJson = some idleFile :=
  ⟨trims_idleFile, (sourceFile_survives_json idleFile).2 idleFileJson trims_idleFile⟩

end ShaderEffect
