import Tether.Compiled

set_option autoImplicit false

/- Strategies turn expressions into something that can be called. They are asked in turn. -/
namespace Tether

inductive Callee where
  | compiled (content : Compiled)
  | fixed (value : Value)

/-- Calls with arguments. A fixed callee only records their number. -/
def Callee.invoke (callee : Callee) (slots : Slots) (arguments : List Argument)
    (metadata : Option Metadata) (world : World Closure) :
    Except (Halt Error) Value × Callee × World Closure :=
  match callee with
  | .compiled content =>
      let (result, content, world) := content.invoke slots arguments metadata world
      (result, .compiled content, world)
  | .fixed value =>
      (.ok value, callee, world.remark [s!"fixed {arguments.length}"])

/-- A strategy's answer, and the remarks made on the way. -/
structure Attempt where
  result : Except CompileError (Option Callee)
  remarks : List String := []

structure Strategy where
  priority : Int
  attempt : Slots → Expr → Option Metadata → Attempt

namespace Strategy

/-- Compiles with a chain of builders. -/
def compiling (chain : List Builder) : Strategy where
  priority := 0
  attempt slots expr metadata :=
    { result := (Compiled.compile chain slots expr metadata).map (some ∘ .compiled) }

/-- Remarks on being asked, whatever the answer. -/
def answering (priority : Int) (result : Except CompileError (Option Callee)) : Strategy where
  priority
  attempt _ expr _ := { result, remarks := [s!"strategy {priority} {expr.text}"] }

def declining (priority : Int) : Strategy :=
  answering priority (.ok none)

def failing (priority : Int) (reason : String) : Strategy :=
  answering priority (.error (.internal reason))

def fixed (priority : Int) (value : Value) : Strategy :=
  answering priority (.ok (some (.fixed value)))

def sort (strategies : List Strategy) : List Strategy :=
  strategies.mergeSort fun first second => second.priority ≤ first.priority

def add (strategies : List Strategy) (strategy : Strategy) : List Strategy :=
  sort (strategies ++ [strategy])

/-- The first strategy that does not decline decides. -/
def compile (slots : Slots) (expr : Expr) (metadata : Option Metadata) :
    List Strategy → Except CompileError Callee × List String
  | [] => (.error (.noStrategy expr.text), [])
  | strategy :: rest =>
      let attempt := strategy.attempt slots expr metadata
      match attempt.result with
      | .ok (some callee) => (.ok callee, attempt.remarks)
      | .error error => (.error error, attempt.remarks)
      | .ok none =>
          let (result, remarks) := compile slots expr metadata rest
          (result, attempt.remarks ++ remarks)

end Strategy

end Tether
