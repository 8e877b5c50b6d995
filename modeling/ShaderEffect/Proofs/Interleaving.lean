import Mathlib.Data.List.Basic
import Mathlib.Logic.Relation
import ShaderEffect.Proofs.FileTree

/-!
# Computations that take turns

Computations with files that run at the same time: each of them stops before every file operation,
and they take turns in any order. As long as they only write, and to different places, nothing
depends on the turns: neither the values that they end with nor the files.
-/

namespace ShaderEffect

open Relation (ReflTransGen)

variable {α β : Type}

/-! ## Computations that stop -/

/-- A computation with files that has come to its next operation, or to its end. -/
inductive Resumption (α : Type) where
  | done (value : α)
  | read (path : String) (next : Except FileError (List UInt8) → Resumption α)
  | createDirectories (path : String) (next : Except FileError Unit → Resumption α)
  | write (path : String) (content : List UInt8) (next : Except FileError Unit → Resumption α)

namespace Resumption

/-- Go on with another computation at the end. -/
def andThen : Resumption α → (α → Resumption β) → Resumption β
  | done value, f => f value
  | read path next, f => .read path fun answer => (next answer).andThen f
  | createDirectories path next, f =>
    .createDirectories path fun answer => (next answer).andThen f
  | write path content next, f => .write path content fun answer => (next answer).andThen f

instance : Monad Resumption where
  pure := done
  bind := andThen

/-- File operations before which a computation stops. -/
def access : FileAccess Resumption where
  read path := .read path done
  createDirectories path := .createDirectories path done
  write path content := .write path content done

/-- Do the next operation. -/
def advance : Resumption α → StateM FileTree (Resumption α)
  | done value => return done value
  | read path next => return next (← FileTree.access.read path)
  | createDirectories path next => return next (← FileTree.access.createDirectories path)
  | write path content next => return next (← FileTree.access.write path content)

/-- Do all operations, one right after the other. -/
def perform : Resumption α → StateM FileTree α
  | done value => return value
  | read path next => do (next (← FileTree.access.read path)).perform
  | createDirectories path next => do (next (← FileTree.access.createDirectories path)).perform
  | write path content next => do (next (← FileTree.access.write path content)).perform

theorem perform_pure (value : α) : (pure value : Resumption α).perform = pure value := rfl

theorem perform_bind (task : Resumption α) (f : α → Resumption β) :
    (task >>= f).perform = task.perform >>= fun value => (f value).perform := by
  change (task.andThen f).perform = _
  induction task with
  | done value => rfl
  | read path next ih => simp only [andThen, perform, ih, bind_assoc]
  | createDirectories path next ih => simp only [andThen, perform, ih, bind_assoc]
  | write path content next ih => simp only [andThen, perform, ih, bind_assoc]

theorem perform_write (path : String) (content : List UInt8) :
    (access.write path content).perform = FileTree.access.write path content := by
  simp [access, perform]

end Resumption

/-! ## Taking turns -/

/-- Computations that work on one tree. -/
structure Interleaving (α : Type) where
  tree : FileTree
  tasks : List (Resumption α)

namespace Interleaving

/-- Any one of the computations does its next operation. One that is at its end stays there. -/
inductive Step : Interleaving α → Interleaving α → Prop where
  | advance (tree : FileTree) (before : List (Resumption α)) (task : Resumption α)
      (after : List (Resumption α)) :
    Step ⟨tree, before ++ task :: after⟩
      ⟨(task.advance.run tree).2, before ++ (task.advance.run tree).1 :: after⟩

/-- All computations are at their ends. -/
def Finished (state : Interleaving α) (values : List α) : Prop :=
  state.tasks = values.map .done

/-- One computation may go on to its end while the others wait. -/
theorem steps_perform (tree : FileTree) (before : List (Resumption α)) (task : Resumption α)
    (after : List (Resumption α)) :
    ReflTransGen Step ⟨tree, before ++ task :: after⟩
      ⟨(task.perform.run tree).2, before ++ .done (task.perform.run tree).1 :: after⟩ := by
  induction task generalizing tree with
  | done value => exact .refl
  | read path next ih => exact .head (.advance ..) (ih _ _)
  | createDirectories path next ih => exact .head (.advance ..) (ih _ _)
  | write path content next ih => exact .head (.advance ..) (ih _ _)

theorem run_mapM_cons (f : α → StateM FileTree β) (x : α) (xs : List α) (tree : FileTree) :
    ((x :: xs).mapM f).run tree =
      (((f x).run tree).1 :: ((xs.mapM f).run ((f x).run tree).2).1,
        ((xs.mapM f).run ((f x).run tree).2).2) := by
  rw [List.mapM_cons]
  rfl

/-- The computations may go on to their ends one after the other. -/
theorem steps_mapM_perform (tree : FileTree) (values : List α) (tasks : List (Resumption α)) :
    ReflTransGen Step ⟨tree, values.map .done ++ tasks⟩
      ⟨((tasks.mapM Resumption.perform).run tree).2,
        (values ++ ((tasks.mapM Resumption.perform).run tree).1).map .done⟩ := by
  induction tasks generalizing tree values with
  | nil =>
      rw [List.append_nil, List.mapM_nil]
      change ReflTransGen Step _ ⟨tree, (values ++ []).map .done⟩
      rw [List.append_nil]
  | cons task rest ih =>
      have hfirst := steps_perform tree (values.map .done) task rest
      have hrest := ih (task.perform.run tree).2 (values ++ [(task.perform.run tree).1])
      rw [run_mapM_cons]
      simp only [List.map_append, List.map_cons, List.map_nil, List.append_assoc,
        List.cons_append, List.nil_append] at hrest ⊢
      exact hfirst.trans hrest

theorem exists_finished (state : Interleaving α) :
    ∃ last values, ReflTransGen Step state last ∧ last.Finished values :=
  ⟨_, _, steps_mapM_perform state.tree [] state.tasks, rfl⟩

end Interleaving

/-! ## What lies ahead -/

namespace Resumption

/-- A computation writes files and does nothing else: the writes that it makes, by place, and the
value that it ends with. Every path has a target, so that all writes succeed. -/
inductive Makes (target? : String → Option (List String)) :
    Resumption α → List (List String × List UInt8) → α → Prop where
  | done (value : α) : Makes target? (.done value) [] value
  | write {path content next place writes value} (ht : target? path = some place)
      (hn : Makes target? (next (.ok ())) writes value) :
    Makes target? (.write path content next) ((place, content) :: writes) value

variable {target? : String → Option (List String)} {writes later : List (List String × List UInt8)}

theorem Makes.of_done {value final : α}
    (h : (Resumption.done value).Makes target? writes final) : final = value ∧ writes = [] := by
  cases h
  exact ⟨rfl, rfl⟩

theorem Makes.bind {task : Resumption α} {f : α → Resumption β} {value : α} {final : β}
    (h : task.Makes target? writes value) (hf : (f value).Makes target? later final) :
    (task >>= f).Makes target? (writes ++ later) final := by
  induction h with
  | done value => exact hf
  | write ht _ ih => exact .write ht (ih hf)

end Resumption

/-- A computation with what it is expected to do. -/
structure Forecast (α : Type) where
  task : Resumption α
  writes : List (List String × List UInt8)
  value : α

namespace Interleaving

/-- The computations do what is expected of them, and no two write to one place. -/
structure Ahead (state : Interleaving α) (forecasts : List (Forecast α)) : Prop where
  tasks : state.tasks = forecasts.map (·.task)
  makes : ∀ forecast ∈ forecasts,
    forecast.task.Makes state.tree.target? forecast.writes forecast.value
  apart : forecasts.Pairwise fun first second =>
    ∀ a ∈ first.writes, ∀ b ∈ second.writes, a.1 ≠ b.1

/-- What will be at each place when all computations are at their ends. -/
def outlook (state : Interleaving α) (forecasts : List (Forecast α)) :
    List String → Option FileNode :=
  FileTree.overwrite state.tree.node? (forecasts.flatMap (·.writes))

variable {state next : Interleaving α} {forecasts : List (Forecast α)}

theorem advance_write {tree : FileTree} {path : String} {content : List UInt8}
    {resume : Except FileError Unit → Resumption α} {place : List String}
    (ht : tree.target? path = some place) :
    (Resumption.write path content resume).advance.run tree =
      (resume (.ok ()), tree.insert place (.file content)) := by
  change (resume ((FileTree.access.write path content).run tree).1,
    ((FileTree.access.write path content).run tree).2) = _
  rw [FileTree.run_write, FileTree.write_of_target? ht]

/-- A turn changes neither what the computations end with nor the files there will be: the write
that is made now would otherwise be made after those of the computations before it, all of them to
other places. -/
theorem Ahead.step (h : state.Ahead forecasts) (hs : Step state next) :
    ∃ later, next.Ahead later ∧ later.map (·.value) = forecasts.map (·.value) ∧
      next.outlook later = state.outlook forecasts ∧ next.tree.current = state.tree.current := by
  cases hs with
  | advance tree before task after =>
      obtain ⟨earlier, others, rfl, rfl, ho⟩ := List.map_eq_append_iff.mp h.tasks.symm
      obtain ⟨forecast, later, rfl, rfl, rfl⟩ := List.map_eq_cons_iff.mp ho
      obtain ⟨task, writes, value⟩ := forecast
      have hmakes : task.Makes tree.target? writes value := h.makes ⟨task, writes, value⟩ (by simp)
      cases hmakes with
      | done => exact ⟨_, h, rfl, rfl, rfl⟩
      | @write path content resume place rest _ ht hn =>
          have hplace := (FileTree.target?_eq_some.mp ht).2
          obtain ⟨hearlier, hrest, hbetween⟩ := List.pairwise_append.mp h.apart
          obtain ⟨hlater, htail⟩ := List.pairwise_cons.mp hrest
          simp only [advance_write ht]
          refine ⟨earlier ++ ⟨resume (.ok ()), rest, value⟩ :: later, ⟨by simp, ?_, ?_⟩, by simp,
            ?_, rfl⟩
          · intro forecast hf
            rw [FileTree.target?_insert hplace content]
            rcases List.mem_append.mp hf with he | hl
            · exact h.makes forecast (List.mem_append_left _ he)
            · rcases List.mem_cons.mp hl with rfl | hl
              · exact hn
              · exact h.makes forecast (List.mem_append_right _ (List.mem_cons_of_mem _ hl))
          · refine List.pairwise_append.mpr ⟨hearlier, List.pairwise_cons.mpr ⟨?_, htail⟩, ?_⟩
            · intro other ho a ha
              exact hlater other ho a (List.mem_cons_of_mem _ ha)
            · intro first hf second hs a ha b hb
              rcases List.mem_cons.mp hs with rfl | hs
              · exact hbetween first hf _ List.mem_cons_self a ha b (List.mem_cons_of_mem _ hb)
              · exact hbetween first hf second (List.mem_cons_of_mem _ hs) a ha b hb
          · -- All that is written before in turn order goes elsewhere, so the write can come first.
            have hother : ∀ write ∈ earlier.flatMap (·.writes), write.1 ≠ place := by
              intro write hw
              obtain ⟨first, hf, hw⟩ := List.mem_flatMap.mp hw
              exact hbetween first hf _ List.mem_cons_self write hw _ List.mem_cons_self
            simp only [outlook, List.flatMap_append, List.flatMap_cons, FileTree.overwrite_append,
              FileTree.overwrite_cons, FileTree.node?_insert hplace,
              FileTree.overwrite_update hother]

/-- Turns change neither what the computations end with nor the files there will be. -/
theorem Ahead.steps (h : state.Ahead forecasts) (hs : ReflTransGen Step state next) :
    ∃ later, next.Ahead later ∧ later.map (·.value) = forecasts.map (·.value) ∧
      next.outlook later = state.outlook forecasts ∧ next.tree.current = state.tree.current := by
  induction hs with
  | refl => exact ⟨forecasts, h, rfl, rfl, rfl⟩
  | tail _ hlast ih =>
      obtain ⟨later, hahead, hvalues, hnodes, hcurrent⟩ := ih
      obtain ⟨last, hahead', hvalues', hnodes', hcurrent'⟩ := hahead.step hlast
      exact ⟨last, hahead', hvalues'.trans hvalues, hnodes'.trans hnodes,
        hcurrent'.trans hcurrent⟩

/-- At the ends nothing is left to write. -/
theorem Ahead.finished {values : List α} (h : state.Ahead forecasts)
    (hf : state.Finished values) :
    values = forecasts.map (·.value) ∧ state.tree.node? = state.outlook forecasts := by
  have hend (forecast : Forecast α) (hm : forecast ∈ forecasts) :
      forecast.task = .done forecast.value ∧ forecast.writes = [] := by
    have hmem : forecast.task ∈ values.map .done := by
      rw [← hf, h.tasks]
      exact List.mem_map_of_mem hm
    obtain ⟨value, -, hv⟩ := List.mem_map.mp hmem
    obtain ⟨hvalue, hwrites⟩ := Resumption.Makes.of_done (hv ▸ h.makes forecast hm)
    exact ⟨by rw [hvalue, hv], hwrites⟩
  constructor
  · have hdone : Function.Injective (@Resumption.done α) := fun _ _ => Resumption.done.inj
    apply List.map_injective_iff.mpr hdone
    rw [← hf, h.tasks, List.map_map]
    exact List.map_congr_left fun forecast hm => (hend forecast hm).1
  · have hnothing : forecasts.flatMap (·.writes) = [] :=
      List.flatMap_eq_nil_iff.mpr fun forecast hm => (hend forecast hm).2
    rw [outlook, hnothing]
    rfl

/-- All ways to take turns end alike. -/
theorem Ahead.end_alike {first second : Interleaving α} {values others : List α}
    (h : state.Ahead forecasts) (hfirst : ReflTransGen Step state first)
    (hsecond : ReflTransGen Step state second) (hv : first.Finished values)
    (ho : second.Finished others) :
    values = others ∧ first.tree.node? = second.tree.node? ∧
      first.tree.current = second.tree.current := by
  obtain ⟨_, ha, hvalues, hnodes, hcurrent⟩ := h.steps hfirst
  obtain ⟨_, ha', hvalues', hnodes', hcurrent'⟩ := h.steps hsecond
  obtain ⟨hv, hn⟩ := ha.finished hv
  obtain ⟨hv', hn'⟩ := ha'.finished ho
  exact ⟨by rw [hv, hvalues, hv', hvalues'], by rw [hn, hnodes, hn', hnodes'],
    by rw [hcurrent, hcurrent']⟩

end Interleaving

end ShaderEffect
