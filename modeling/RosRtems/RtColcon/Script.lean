import RosRtems.Core.Dependency
import Mathlib.Data.Finset.Insert
import Mathlib.Order.Filter.AtTopBot.Basic

/-!
# The build script

`RTcolcon` compiles the components of a table one after the other.  `compile_one` first
compiles the dependencies that have no `.compiled_` marker, gives up on a component when
one of them fails, and marks the component when its own build has succeeded.
-/

namespace RosRtems.RtColcon

variable {Component : Type*}

/-- `COMPONENTS`, each with its line of `DEPENDENCIES`. -/
structure Table (Component : Type*) where
  entries : List (Component × List Component)
  nodup : (entries.map Prod.fst).Nodup

def Table.components (table : Table Component) : List Component := table.entries.map Prod.fst

inductive Outcome
  | succeeded
  | failed
  | noDirectory
  deriving DecidableEq

def Outcome.foundDirectory : Outcome → Bool
  | .noDirectory => false
  | _ => true

/-- What a run starts from: the table and the options, the markers and directories that
exist, and how the first, second, ... build of each component of this run goes. -/
structure Setup (Component : Type*) where
  table : Table Component
  selectPackages : Option (List Component)
  skipPackages : List Component
  force : Bool
  compiled : Finset Component
  failed : Finset Component
  directory : Component → Bool
  outcome : Component → ℕ → Outcome

/-- The lines that are printed.  A build is started with the markers that there are. -/
inductive Line (Component : Type*)
  | starting (component : Component) (compiled : Finset Component)
  | finished (component : Component)
  | failed (component : Component)
  | dependencyFailed (component : Component)
  | alreadyCompiled (component : Component)

def Line.started : Line Component → Option Component
  | .starting component _ => some component
  | _ => none

def Line.failure : Line Component → Option Component
  | .failed component => some component
  | .dependencyFailed component => some component
  | _ => none

/-- The markers below `./build`, `FAILED_COUNT` and the lines, the newest first. -/
structure Build (Component : Type*) where
  compiled : Finset Component
  failed : Finset Component
  failedCount : ℕ
  log : List (Line Component)

namespace Build

/-- The components whose build has been started. -/
def starts (build : Build Component) : List Component := build.log.filterMap Line.started

/-- The components that have failed, or were given up for a failed dependency. -/
def failures (build : Build Component) : List Component := build.log.filterMap Line.failure

def print (line : Line Component) (build : Build Component) : Build Component :=
  { build with log := line :: build.log }

@[simp]
theorem starts_starting (component : Component) (compiled : Finset Component)
    (build : Build Component) :
    (build.print (.starting component compiled)).starts = component :: build.starts := rfl

theorem starts_print {line : Line Component} (hline : line.started = none)
    (build : Build Component) : (build.print line).starts = build.starts :=
  List.filterMap_cons_none hline

variable [DecidableEq Component]

def markCompiled (component : Component) (build : Build Component) : Build Component :=
  { build with compiled := insert component build.compiled }

/-- Where the script has not found the directory of the component, it touches a marker below
`../build`. -/
def markFailed (component : Component) (foundDirectory : Bool) (build : Build Component) :
    Build Component :=
  { build with
    failed := if foundDirectory then insert component build.failed else build.failed
    failedCount := build.failedCount + 1 }

end Build

variable [DecidableEq Component]

/-- `${DEPENDENCIES[$component]}`, where the key is set. -/
def Table.line (table : Table Component) (component : Component) : Option (List Component) :=
  table.entries.lookup component

/-- `${DEPENDENCIES[$component]:-}`. -/
def Table.dependencies (table : Table Component) (component : Component) : List Component :=
  (table.line component).getD []

/-- The lower component is a direct dependency of the upper one. -/
def Table.Dependency (table : Table Component) (lower upper : Component) : Prop :=
  lower ∈ table.dependencies upper

def Table.Acyclic (table : Table Component) : Prop :=
  ∀ component, ¬ Relation.TransGen table.Dependency component component

theorem Table.mem_components_of_line {table : Table Component} {component : Component}
    {below : List Component} (hline : table.line component = some below) :
    component ∈ table.components := by
  obtain ⟨before, after, hentries, -⟩ := List.lookup_eq_some_iff.mp hline
  rw [components, hentries]
  simp

theorem Table.mem_components_of_dependency {table : Table Component}
    {lower upper : Component} (hlower : table.Dependency lower upper) :
    upper ∈ table.components := by
  rw [Dependency, dependencies] at hlower
  cases hline : table.line upper with
  | none => rw [hline] at hlower; cases hlower
  | some below => exact table.mem_components_of_line hline

/-- An acyclic table has only finitely many lines, so there is no endless descent. -/
theorem Table.Acyclic.wellFounded {table : Table Component} (hacyclic : table.Acyclic) :
    WellFounded table.Dependency :=
  Dependency.wellFounded_of_acyclic (List.finite_toSet table.components)
    (fun _ _ hlower => table.mem_components_of_dependency hlower) hacyclic

theorem Table.dependency_iff_of_line {table : Table Component} {lower upper : Component}
    {below : List Component} (hline : table.line upper = some below) :
    table.Dependency lower upper ↔ lower ∈ below := by
  rw [Dependency, dependencies, hline]
  rfl

/-- A rank that grows along the lines of the table rules out cycles. -/
theorem Table.acyclic_of_rank {table : Table Component} (rank : Component → ℕ)
    (hrank : ∀ entry ∈ table.entries, ∀ lower ∈ entry.2, rank lower < rank entry.1) :
    table.Acyclic := by
  refine Dependency.acyclic_of_rank rank fun lower upper hlower => ?_
  rw [Dependency, dependencies] at hlower
  cases hline : table.line upper with
  | none => rw [hline] at hlower; cases hlower
  | some below =>
      rw [hline] at hlower
      obtain ⟨before, after, hentries, -⟩ := List.lookup_eq_some_iff.mp hline
      exact hrank (upper, below) (by rw [hentries]; simp) lower hlower

/-! ## The components of the script -/

inductive Package
  | dds
  | yaml
  | spdlog
  | rcutils
  | amentIndexCpp
  | rcpputils
  | classLoader
  | rosidl
  | logging
  | rmw
  | rmwDdsCommon
  | rmwFastrtps
  | rmwImplementation
  | builtinInterfaces
  | rclInterfaces
  | compositionInterfaces
  | uniqueIdentifierMsgs
  | actionMsgs
  | exampleInterfaces
  | lifecycleMsgs
  | rosgraphMsgs
  | statisticsMsgs
  | stdMsgs
  | rcl
  | statisticsCollector
  | rclcpp
  | rclcppPicas
  deriving DecidableEq

/-- `COMPONENTS` and `DEPENDENCIES` as the script sets them. -/
def packageTable : Table Package where
  entries := [
    (.dds, []),
    (.yaml, []),
    (.spdlog, []),
    (.rcutils, []),
    (.amentIndexCpp, []),
    (.rcpputils, [.rcutils]),
    (.classLoader, [.rcutils, .rcpputils]),
    (.rosidl, [.rcutils, .rcpputils]),
    (.logging, [.rcutils, .rcpputils, .spdlog]),
    (.rmw, [.rcutils, .rcpputils, .rosidl]),
    (.rmwDdsCommon, [.rcutils, .rcpputils, .rosidl, .rmw]),
    (.rmwFastrtps, [.dds, .rcutils, .rcpputils, .rmw, .rosidl, .rmwDdsCommon]),
    (.rmwImplementation, [.rcutils, .rcpputils, .rmw, .amentIndexCpp]),
    (.builtinInterfaces, [.rcutils, .dds, .rosidl]),
    (.rclInterfaces, [.dds, .rcutils, .rmw, .rosidl, .builtinInterfaces]),
    (.compositionInterfaces, [.rclInterfaces, .rcutils, .rosidl, .dds, .rmw]),
    (.uniqueIdentifierMsgs, [.rosidl, .rcutils, .dds]),
    (.actionMsgs, [.rosidl, .uniqueIdentifierMsgs, .builtinInterfaces, .rcutils, .dds, .rmw]),
    (.exampleInterfaces, [.rosidl, .rcutils, .uniqueIdentifierMsgs, .builtinInterfaces,
      .actionMsgs, .rmw, .dds]),
    (.lifecycleMsgs, [.rosidl, .rcutils, .dds, .rmw]),
    (.rosgraphMsgs, [.rosidl, .rcutils, .builtinInterfaces, .dds]),
    (.statisticsMsgs, [.rosidl, .rcutils, .builtinInterfaces, .dds]),
    (.stdMsgs, [.rosidl, .rcutils, .dds, .builtinInterfaces]),
    (.rcl, [.rmw, .rcutils, .rosidl, .rmwImplementation, .rclInterfaces, .logging]),
    (.statisticsCollector, [.rcpputils, .rosidl, .builtinInterfaces, .rcl, .rmw,
      .statisticsMsgs]),
    (.rclcpp, [.rmw, .rcpputils, .rcutils, .rcl, .builtinInterfaces, .rclInterfaces,
      .rosgraphMsgs, .statisticsMsgs, .statisticsCollector, .amentIndexCpp, .rosidl]),
    (.rclcppPicas, [.rmw, .rcpputils, .rcutils, .rcl, .builtinInterfaces, .rclInterfaces,
      .rosgraphMsgs, .statisticsMsgs, .statisticsCollector, .amentIndexCpp, .rosidl])]
  nodup := by decide

/-- `COMPONENTS` lists every component after its dependencies. -/
theorem packageTable_acyclic : packageTable.Acyclic :=
  Table.acyclic_of_rank (fun package => packageTable.components.idxOf package) (by decide)

/-! ## `compile_one` -/

/-- The loop over the dependencies of a component, with `dep_failed`. -/
def compileDependencies (compile : Component → Build Component → Option (Bool × Build Component)) :
    Bool → List Component → Build Component → Option (Bool × Build Component)
  | depFailed, [], build => some (depFailed, build)
  | depFailed, dep :: rest, build =>
      if depFailed then some (depFailed, build)
      else if dep ∈ build.compiled then compileDependencies compile false rest build
      else do
        let (ok, build) ← compile dep build
        compileDependencies compile (!ok) rest build

variable (setup : Setup Component)

/-- The build of a component itself, from the line that it prints first. -/
def startBuild (component : Component) (build : Build Component) :
    Bool × Build Component :=
  let started := build.print (.starting component build.compiled)
  match setup.outcome component (build.starts.count component) with
  | .noDirectory => (false, (started.markFailed component false).print (.failed component))
  | .failed => (false, (started.markFailed component true).print (.failed component))
  | .succeeded => (true, (started.markCompiled component).print (.finished component))

/-- `compile_one` after the loop over the dependencies. -/
def finishOne (component : Component) (depFailed : Bool) (build : Build Component) :
    Bool × Build Component :=
  if depFailed then (false, (build.markFailed component true).print (.dependencyFailed component))
  else if component ∈ build.compiled then (true, build.print (.alreadyCompiled component))
  else startBuild setup component build

/-- `compile_one`: whether it returns 0, and what it leaves.  The fuel bounds the depth of
the recursion. -/
def compileOne : ℕ → Component → Build Component → Option (Bool × Build Component)
  | 0, _, _ => none
  | fuel + 1, component, build => do
      let (depFailed, build) ←
        compileDependencies (compileOne fuel) false (setup.table.dependencies component) build
      some (finishOne setup component depFailed build)

/-- The main loop over `COMPONENTS`. -/
def mainLoop (fuel : ℕ) : List Component → Build Component → Option (Build Component)
  | [], build => some build
  | component :: rest, build => do
      let (_, build) ← compileOne setup fuel component build
      mainLoop fuel rest build

/-- Before the main loop, `--force` removes the markers of earlier runs. -/
def initialBuild : Build Component where
  compiled := if setup.force then ∅ else setup.compiled
  failed := if setup.force then ∅ else setup.failed
  failedCount := 0
  log := []

/-! ## The packages of a run -/

/-- Why a run ends before the main loop: a selected package that is neither in the table
nor a directory, or a component without a line of `DEPENDENCIES`.  Running out of fuel is
no exit of the script. -/
inductive Stop (Component : Type*)
  | unknownPackage (package : Component)
  | unboundVariable (component : Component)
  | outOfFuel

/-- `resolve_deps`, with `NEEDED`. -/
def resolveDeps : ℕ → Component → Finset Component → Except (Stop Component) (Finset Component)
  | 0, _, _ => .error .outOfFuel
  | fuel + 1, package, needed =>
      if package ∈ needed then .ok needed
      else
        match setup.table.line package with
        | none => .error (.unboundVariable package)
        | some below =>
            below.foldlM (fun needed dep => resolveDeps fuel dep needed) (insert package needed)

/-- The loop over `SELECT_PACKAGES`, with `NEEDED` and `EXTRA_PACKAGES`.  A package without
dependencies is taken for a standalone project. -/
def selectPackages (fuel : ℕ) :
    List Component → Finset Component × List Component →
      Except (Stop Component) (Finset Component × List Component)
  | [], found => .ok found
  | package :: rest, (needed, extra) =>
      if setup.table.dependencies package = [] then
        if setup.directory package then
          selectPackages fuel rest (insert package needed, extra ++ [package])
        else .error (.unknownPackage package)
      else do
        let needed ← resolveDeps setup fuel package needed
        selectPackages fuel rest (needed, extra)

/-- `COMPONENTS` after `--select-packages` and `--skip-packages`. -/
def targetPackages (fuel : ℕ) : Except (Stop Component) (List Component) := do
  let components ← match setup.selectPackages with
    | none => .ok setup.table.components
    | some packages => do
        let (needed, extra) ← selectPackages setup fuel packages (∅, [])
        .ok (setup.table.components.filter (fun component => component ∈ needed) ++ extra)
  .ok (components.filter fun component => component ∉ setup.skipPackages)

/-- A run of the script: the packages that it goes through, and what it leaves. -/
def rtColcon (fuel : ℕ) : Except (Stop Component) (List Component × Build Component) := do
  let targets ← targetPackages setup fuel
  (mainLoop setup fuel targets (initialBuild setup)).elim (.error .outOfFuel)
    fun build => .ok (targets, build)

variable {setup}

theorem rtColcon_of_targets {fuel : ℕ} {targets : List Component}
    (htargets : targetPackages setup fuel = .ok targets) :
    rtColcon setup fuel =
      (mainLoop setup fuel targets (initialBuild setup)).elim (.error .outOfFuel)
        fun build => .ok (targets, build) := by
  rw [rtColcon, htargets]
  rfl

theorem rtColcon_eq_ok {fuel : ℕ} {targets : List Component} {build : Build Component}
    (hrun : rtColcon setup fuel = .ok (targets, build)) :
    targetPackages setup fuel = .ok targets ∧
      mainLoop setup fuel targets (initialBuild setup) = some build := by
  cases htargets : targetPackages setup fuel with
  | error stop =>
      rw [rtColcon, htargets] at hrun
      cases hrun
  | ok found =>
      rw [rtColcon_of_targets htargets] at hrun
      cases hloop : mainLoop setup fuel found (initialBuild setup) with
      | none => rw [hloop] at hrun; cases hrun
      | some left =>
          rw [hloop] at hrun
          cases hrun
          exact ⟨rfl, hloop⟩

end RosRtems.RtColcon
