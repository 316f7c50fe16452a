import Tether.Build

set_option autoImplicit false

/- Builders that put something of their own in front of the standard ones. -/
namespace Tether.Builder

def concerns (kind : Option Kind) (offer : Offer) : Bool :=
  match kind with
  | some kind => offer.node.kind == kind
  | none => true

/-- Remarks on every node, or on those of one kind, and answers none. -/
def observer (priority : Int) (kind : Option Kind) : Builder where
  priority
  respond offer := do
    if concerns kind offer then Build.remark ("offer " ++ offer.text)
    pure none

/-- Answers every constant with one value. -/
def constantly (priority : Int) (value : Value) : Builder where
  priority
  respond offer :=
    match offer.node with
    | .constant _ => pure (some (.ofValue value))
    | _ => pure none

/-- Answers a plain name with a value of a declared type; its evaluations are recorded. -/
def announced (priority : Int) (name : String) (value : Value) (tag : TypeTag) : Builder where
  priority
  respond offer :=
    let announce (_ : Frame) : Script := .remark ("eval " ++ name) (.done (.ok value))
    match offer.node with
    | .member none found =>
        pure (if found == name then some { tag, code := .custom announce } else none)
    | _ => pure none

/-- Fails at the expression with the given text. -/
def refusing (priority : Int) (text : String) : Builder where
  priority
  respond offer :=
    if offer.text == text then Build.fail (.internal ("refused " ++ text)) else pure none

/-- Puts a value into the fallback table for the expression with the given text. -/
def preset (priority : Int) (text : String) (value : Value) : Builder where
  priority
  respond offer := do
    if offer.text == text then
      Build.modifyContext fun context =>
        context.setFallback (.ofExpr context.slots offer.expr) (.ofValue value)
    pure none

/-- Remarks on an entry of the build's metadata at nodes of one kind, and may then change it. -/
def probe (priority : Int) (kind : Kind) (key : String) (change : Option Datum) : Builder where
  priority
  respond offer := do
    if concerns (some kind) offer then
      let found := (← Build.context).metadata.valueOf key
      Build.remark ("probe " ++ key ++ "=" ++ found.text)
      match change with
      | some datum =>
          Build.modifyContext fun context =>
            { context with metadata := context.metadata.insert key datum }
      | none => pure ()
    pure none

/-- Answers a plain name with an entry of the call's metadata. -/
def noted (priority : Int) (name key : String) : Builder where
  priority
  respond offer :=
    let note (frame : Frame) : Script :=
      .done (.ok (frame.metadata.elim .null fun metadata => metadata.valueOf key))
    match offer.node with
    | .member none found =>
        pure (if found == name then some { tag := .object, code := .custom note } else none)
    | _ => pure none

end Tether.Builder
