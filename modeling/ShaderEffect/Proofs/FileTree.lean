import Mathlib.Logic.Function.Basic
import ShaderEffect.Package.FileTree
import ShaderEffect.Proofs.Result

/-!
# Writing files

What a write does to a tree, seen through what is at each place. A write that succeeds puts a file
at one place, the target of its path. It makes and removes no directory, so it moves the target of
no path.
-/

namespace ShaderEffect

namespace FileTree

variable {tree first second : FileTree} {path : String} {place : List String}

/-- The place whose content a write to a path replaces, if such a write succeeds. -/
def target? (tree : FileTree) (path : String) : Option (List String) :=
  match tree.locate path with
  | .ok place => if tree.node? place = some .directory then none else some place
  | .error _ => none

theorem target?_eq_some : tree.target? path = some place ↔
    tree.locate path = .ok place ∧ tree.node? place ≠ some .directory := by
  unfold target?
  cases tree.locate path with
  | error error => simp
  | ok found =>
      by_cases hf : tree.node? found = some .directory
      · simp only [hf, if_true, reduceCtorEq, Except.ok.injEq, false_iff]
        rintro ⟨rfl, hd⟩
        exact hd hf
      · simp only [hf, if_false, Option.some.injEq, Except.ok.injEq]
        exact ⟨fun h => ⟨h, h ▸ hf⟩, fun h => h.1⟩

/-! ## The effect of a write -/

theorem lookup_filter_self (nodes : List (List String × FileNode)) (place : List String) :
    (nodes.filter (·.1 != place)).lookup place = none := by
  rw [List.lookup_eq_none_iff]
  intro entry he
  have hne : entry.1 ≠ place := by simpa using (List.mem_filter.mp he).2
  simpa using hne.symm

theorem lookup_filter_of_ne {other : List String} (nodes : List (List String × FileNode))
    (h : other ≠ place) : (nodes.filter (·.1 != place)).lookup other = nodes.lookup other := by
  induction nodes with
  | nil => rfl
  | cons entry rest ih =>
      obtain ⟨key, node⟩ := entry
      by_cases hk : key = place
      · have ho : (other == key) = false := beq_eq_false_iff_ne.mpr (hk ▸ h)
        simpa [hk, List.lookup_cons, hk ▸ ho] using ih
      · simp [hk, List.lookup_cons, ih]

/-- What is put at a place that is no directory is found there, and the rest stays. -/
theorem node?_insert (h : tree.node? place ≠ some .directory) (node : FileNode) :
    (tree.insert place node).node? = Function.update tree.node? place (some node) := by
  have hplace : ¬ place.isPrefixOf tree.current = true := by
    intro hp
    exact h (by simp [node?, hp])
  funext other
  by_cases ho : other = place
  · subst ho
    simp [node?, insert, hplace, List.lookup_append, lookup_filter_self]
  · have hne : (other == place) = false := beq_eq_false_iff_ne.mpr ho
    simp [node?, insert, Function.update_of_ne ho, List.lookup_append, lookup_filter_of_ne _ ho,
      List.lookup_cons, hne]

theorem write_of_target? (h : tree.target? path = some place) (content : List UInt8) :
    tree.write path content = .ok (tree.insert place (.file content)) := by
  obtain ⟨hl, hd⟩ := target?_eq_some.mp h
  refine bind_eq_ok.mpr ⟨place, hl, ?_⟩
  split
  · rename_i hn
    exact absurd hn hd
  · rfl

theorem exists_target? {content : List UInt8} {after : FileTree}
    (h : tree.write path content = .ok after) :
    ∃ place, tree.target? path = some place ∧ after = tree.insert place (.file content) := by
  obtain ⟨place, hl, hw⟩ := bind_eq_ok.mp h
  split at hw
  · cases hw
  · rename_i hd
    cases hw
    exact ⟨place, target?_eq_some.mpr ⟨hl, hd⟩, rfl⟩

theorem write_of_target?_eq_none (h : tree.target? path = none) (content : List UInt8) :
    ∃ cause, tree.write path content = .error cause := by
  cases hw : tree.write path content with
  | error cause => exact ⟨cause, rfl⟩
  | ok after =>
      obtain ⟨place, ht, -⟩ := exists_target? hw
      simp [h] at ht

/-- The write as an operation on the tree of a computation. -/
theorem run_write (tree : FileTree) (path : String) (content : List UInt8) :
    (access.write path content).run tree =
      match tree.write path content with
      | .ok after => (.ok (), after)
      | .error cause => (.error cause, tree) := by
  change (match tree.write path content with
    | .ok after => (do set after; return .ok () : StateM FileTree (Except FileError Unit))
    | .error cause => return .error cause).run tree = _
  cases tree.write path content <;> rfl

/-! ## Directories decide where paths lead -/

/-- Two trees have the same directories. -/
structure SameDirectories (first second : FileTree) : Prop where
  current : first.current = second.current
  directory (place : List String) :
    first.node? place = some .directory ↔ second.node? place = some .directory

theorem SameDirectories.symm (h : SameDirectories first second) : SameDirectories second first :=
  ⟨h.current.symm, fun place => (h.directory place).symm⟩

theorem node?_of_step {name : String} {next : List String}
    (h : tree.step place name = .ok next) : tree.node? place = some .directory := by
  unfold step at h
  split at h
  · cases h
  · cases h
  · assumption

theorem SameDirectories.step (hs : SameDirectories first second) {name : String}
    {next : List String} (h : first.step place name = .ok next) :
    second.step place name = .ok next := by
  have hf := node?_of_step h
  have hd := (hs.directory place).mp hf
  unfold FileTree.step at h ⊢
  rw [hf] at h
  rw [hd]
  exact h

theorem SameDirectories.walk (hs : SameDirectories first second) {names : List String}
    {found : List String} (h : first.walk place names = .ok found) :
    second.walk place names = .ok found := by
  induction names generalizing place with
  | nil => exact h
  | cons name rest ih =>
      obtain ⟨next, hn, hr⟩ := bind_eq_ok.mp h
      exact bind_eq_ok.mpr ⟨next, hs.step hn, ih hr⟩

theorem locate_eq_ok : tree.locate path = .ok place ↔ pathError? path = none ∧
    tree.walk (tree.start path) (pathNames path ++ if endsInSlash path then ["."] else []) =
      .ok place := by
  unfold FileTree.locate
  cases he : pathError? path with
  | some error =>
      refine iff_of_false (fun h => ?_) (fun h => Option.some_ne_none _ h.1)
      cases h
  | none => exact ⟨fun h => ⟨rfl, h⟩, And.right⟩

theorem SameDirectories.locate (hs : SameDirectories first second)
    (h : first.locate path = .ok place) : second.locate path = .ok place := by
  obtain ⟨he, hw⟩ := locate_eq_ok.mp h
  have hstart : first.start path = second.start path := by simp [start, hs.current]
  exact locate_eq_ok.mpr ⟨he, hs.walk (hstart ▸ hw)⟩

theorem SameDirectories.target?_eq (hs : SameDirectories first second) :
    first.target? = second.target? := by
  funext path
  apply Option.ext
  intro place
  simp only [target?_eq_some, ne_eq, hs.directory]
  exact and_congr_left fun _ => ⟨hs.locate, hs.symm.locate⟩

/-- A write moves the target of no path. -/
theorem target?_insert (h : tree.node? place ≠ some .directory) (content : List UInt8) :
    (tree.insert place (.file content)).target? = tree.target? := by
  apply SameDirectories.target?_eq
  refine ⟨rfl, fun other => ?_⟩
  rw [node?_insert h]
  by_cases ho : other = place
  · subst ho
    simp [h]
  · rw [Function.update_of_ne ho]

/-! ## Files written one after the other -/

/-- What is at each place after files are written there, in this order. -/
def overwrite (nodes : List String → Option FileNode)
    (writes : List (List String × List UInt8)) : List String → Option FileNode :=
  writes.foldl (fun nodes write => Function.update nodes write.1 (some (.file write.2))) nodes

theorem overwrite_cons (nodes : List String → Option FileNode)
    (write : List String × List UInt8) (rest : List (List String × List UInt8)) :
    overwrite nodes (write :: rest) =
      overwrite (Function.update nodes write.1 (some (.file write.2))) rest :=
  rfl

theorem overwrite_append (nodes : List String → Option FileNode)
    (first second : List (List String × List UInt8)) :
    overwrite nodes (first ++ second) = overwrite (overwrite nodes first) second :=
  List.foldl_append

/-- A write comes to the same before and after writes to other places. -/
theorem overwrite_update {writes : List (List String × List UInt8)}
    (h : ∀ write ∈ writes, write.1 ≠ place) (nodes : List String → Option FileNode)
    (node : Option FileNode) :
    overwrite (Function.update nodes place node) writes =
      Function.update (overwrite nodes writes) place node := by
  induction writes generalizing nodes with
  | nil => rfl
  | cons write rest ih =>
      have hne : write.1 ≠ place := h write List.mem_cons_self
      have hcomm := Function.update_comm hne (some (.file write.2)) node nodes
      rw [overwrite_cons, overwrite_cons, ← hcomm]
      exact ih (fun other ho => h other (List.mem_cons_of_mem _ ho)) _

/-! ## What is at each place decides what is read -/

theorem walk_congr (hn : first.node? = second.node?) (place names : List String) :
    first.walk place names = second.walk place names := by
  induction names generalizing place with
  | nil => rfl
  | cons name rest ih =>
      simp only [walk, step, hn, ih]

theorem read_congr (hc : first.current = second.current) (hn : first.node? = second.node?) :
    first.read = second.read := by
  funext path
  simp only [read, locate, start, hc, hn, walk_congr hn]

end FileTree

/-! ## Names of files -/

/-- A name that leads from a directory to a file of its own. -/
structure IsFileName (name : String) : Prop where
  noSlash : '/' ∉ name.toList
  ne_empty : name ≠ ""
  ne_here : name ≠ "."
  ne_above : name ≠ ".."

theorem splitSlashes_of_not_mem {text : List Char} (h : '/' ∉ text) :
    splitSlashes text = [text] := by
  induction text with
  | nil => rfl
  | cons c rest ih =>
      have hc : c ≠ '/' := fun hc => h (hc ▸ List.mem_cons_self)
      have hr : '/' ∉ rest := fun hr => h (List.mem_cons_of_mem _ hr)
      simp [splitSlashes, hc, ih hr]

theorem splitSlashes_ne_nil (text : List Char) : splitSlashes text ≠ [] := by
  induction text with
  | nil => simp [splitSlashes]
  | cons c rest ih =>
      simp only [splitSlashes]
      split
      · simp
      · cases hs : splitSlashes rest with
        | nil => exact absurd hs ih
        | cons name names => simp

theorem splitSlashes_append (front rear : List Char) :
    splitSlashes (front ++ '/' :: rear) = splitSlashes front ++ splitSlashes rear := by
  induction front with
  | nil => simp [splitSlashes]
  | cons c rest ih =>
      simp only [List.cons_append, splitSlashes, ih]
      split
      · rfl
      · cases hs : splitSlashes rest with
        | nil => exact absurd hs (splitSlashes_ne_nil rest)
        | cons name names => rfl

theorem IsFileName.isRooted_eq {name : String} (h : IsFileName name) : isRooted name = false := by
  cases hn : name.toList with
  | nil => simp [isRooted, hn]
  | cons c rest =>
      have hc : c ≠ '/' := fun hc => h.noSlash (by simp [hn, hc])
      simpa [isRooted, hn] using hc

/-- What a path has before the name of a file: nothing, or a text with a slash at its end. -/
def IsFront (front : String) : Prop :=
  front = "" ∨ ∃ above, front.toList = above ++ ['/']

theorem exists_joinPath (directory : String) :
    ∃ front, IsFront front ∧
      ∀ name, isRooted name = false → joinPath directory name = front ++ name := by
  by_cases he : directory.isEmpty = true
  · exact ⟨"", .inl rfl, fun name h => by simp [joinPath, h, he]⟩
  · by_cases hl : endsInSlash directory = true
    · have hlast : directory.toList.getLast? = some '/' := by simpa [endsInSlash] using hl
      refine ⟨directory, .inr (List.getLast?_eq_some_iff.mp hlast), fun name h => ?_⟩
      simp [joinPath, h, he, hl]
    · refine ⟨directory ++ "/", .inr ⟨directory.toList, by simp⟩, fun name h => ?_⟩
      simp [joinPath, h, he, hl]

namespace IsFront

variable {front name : String}

theorem isRooted_append (h : IsFront front) (hn : IsFileName name) :
    isRooted (front ++ name) = isRooted front := by
  rcases h with rfl | ⟨above, ha⟩
  · rw [String.empty_append, hn.isRooted_eq]
    rfl
  · cases above <;> simp [isRooted, ha]

theorem endsInSlash_append (front : String) (hn : IsFileName name) :
    endsInSlash (front ++ name) = false := by
  have hlast : (front.toList ++ name.toList).getLast? ≠ some '/' := by
    have hne : name.toList ≠ [] := by simpa using hn.ne_empty
    rw [List.getLast?_append, List.getLast?_eq_some_getLast hne, Option.some_or]
    intro hl
    exact hn.noSlash (Option.some.inj hl ▸ List.getLast_mem hne)
  simpa [endsInSlash] using hlast

theorem exists_pathNames (h : IsFront front) :
    ∃ names, ∀ name, IsFileName name → pathNames (front ++ name) = names ++ [name] := by
  obtain ⟨texts, ht⟩ : ∃ texts, ∀ name : String, IsFileName name →
      splitSlashes (front ++ name).toList = texts ++ [name.toList] := by
    rcases h with rfl | ⟨above, ha⟩
    · exact ⟨[], fun name h => by simpa using splitSlashes_of_not_mem h.noSlash⟩
    · refine ⟨splitSlashes above, fun name h => ?_⟩
      rw [String.toList_append, ha, List.append_assoc, List.singleton_append, splitSlashes_append,
        splitSlashes_of_not_mem h.noSlash]
  refine ⟨((texts.map String.ofList).filter (!·.isEmpty)).filter (· != "."), fun name h => ?_⟩
  have hne : name.isEmpty = false := by simpa using h.ne_empty
  simp only [pathNames]
  rw [ht name h]
  simp [hne, h.ne_here]

end IsFront

namespace FileTree

variable {tree : FileTree} {place : List String}

theorem walk_append (front rear : List String) :
    tree.walk place (front ++ rear) =
      tree.walk place front >>= fun next => tree.walk next rear := by
  induction front generalizing place with
  | nil => rfl
  | cons name rest ih =>
      simp only [List.cons_append, walk, ih, bind_assoc]

theorem step_of_isFileName {name : String} {next : List String} (hn : IsFileName name)
    (h : tree.step place name = .ok next) : next = place ++ [name] := by
  have hd := node?_of_step h
  simp only [step, hd, hn.ne_here, hn.ne_above, if_false] at h
  split at h
  · cases h
  · cases h
    rfl

/-- Two files of a directory are at different places. -/
theorem eq_of_locate_joinPath {directory first second : String} (hf : IsFileName first)
    (hs : IsFileName second) (h : tree.locate (joinPath directory first) = .ok place)
    (h' : tree.locate (joinPath directory second) = .ok place) : first = second := by
  obtain ⟨front, hfront, hjoin⟩ := exists_joinPath directory
  obtain ⟨names, hnames⟩ := hfront.exists_pathNames
  have hwalk (name : String) (hn : IsFileName name)
      (hl : tree.locate (joinPath directory name) = .ok place) :
      ∃ above, tree.walk (tree.start front) names = .ok above ∧ place = above ++ [name] := by
    rw [hjoin name hn.isRooted_eq] at hl
    obtain ⟨-, hw⟩ := locate_eq_ok.mp hl
    have hstart : tree.start (front ++ name) = tree.start front := by
      simp [start, hfront.isRooted_append hn]
    rw [hstart, hnames name hn, IsFront.endsInSlash_append front hn] at hw
    simp only [Bool.false_eq_true, if_false, List.append_nil, walk_append] at hw
    obtain ⟨above, ha, hlast⟩ := bind_eq_ok.mp hw
    obtain ⟨next, hstep, hnext⟩ := bind_eq_ok.mp hlast
    cases hnext
    exact ⟨above, ha, step_of_isFileName hn hstep⟩
  obtain ⟨above, ha, rfl⟩ := hwalk first hf h
  obtain ⟨above', ha', heq⟩ := hwalk second hs h'
  rw [ha] at ha'
  cases ha'
  simpa using heq

end FileTree

end ShaderEffect
