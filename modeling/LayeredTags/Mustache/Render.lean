import LayeredTags.Mustache.Helper.Result
import LayeredTags.Mustache.Template

/-!
# Rendering mustache templates

Texts stand as they are, and nothing is escaped.

* `Mustache.render`: the text of a code in a context. In strict mode a missing value is an error.
-/

namespace LayeredTags.Mustache

/-- What stands for something that is missing. -/
def absent (strict : Bool) : Except RenderError String :=
  if strict then .error .missing else .ok ""

/-- The text of a call of a helper that shows no section. -/
def callText (strict : Bool) (helper? : Option Helper) (values : List (Option Json)) :
    Except RenderError String :=
  match helper? with
  | none => .error .unknownHelper
  | some .content | some .note => .ok ""
  | some .condition | some .negation | some .loop | some .focus =>
    if values.isEmpty then .error .missingArgument else .ok ""
  | some helper => do
    match ← helper.result strict values with
    | some value => .ok (valueText value)
    | none => absent strict

mutual

def renderFragment (strict : Bool) (scopes : List Scope) : Fragment → Except RenderError String
  | .text s => .ok s
  | .value path => do
    match ← Scope.resolve scopes path with
    | some value => .ok (valueText value)
    | none => absent strict
  | .call helper? arguments => do
    callText strict helper? (← arguments.mapM (Scope.argument scopes))
  | .block helper? arguments body inverse => do
    let values ← arguments.mapM (Scope.argument scopes)
    match helper?, values with
    | some .condition, value? :: _ =>
      if isShown value? then renderList strict scopes body
      else renderInverse strict scopes (.ok "") inverse
    | some .negation, value? :: _ =>
      if isShown value? then renderInverse strict scopes (.ok "") inverse
      else renderList strict scopes body
    | some .focus, value? :: _ =>
      if isShown value? then
        renderList strict (Scope.inside scopes (value?.getD .null) :: scopes) body
      else renderInverse strict scopes (absent strict) inverse
    | some .loop, value? :: _ =>
      match value?.bind Scope.turns? with
      | some [] => renderInverse strict scopes (.ok "") inverse
      | some turns => do
        let texts ← turns.mapM fun turn => renderList strict (turn :: scopes) body
        .ok (String.join texts)
      | none => renderInverse strict scopes (absent strict) inverse
    | some .content, _ => renderList strict scopes body
    | helper?, values => callText strict helper? values

/-- The text of the alternative of a section, or what stands for it. -/
def renderInverse (strict : Bool) (scopes : List Scope) (otherwise : Except RenderError String) :
    Option (List Fragment) → Except RenderError String
  | some fragments => renderList strict scopes fragments
  | none => otherwise

def renderList (strict : Bool) (scopes : List Scope) : List Fragment → Except RenderError String
  | [] => .ok ""
  | fragment :: rest => do
    let first ← renderFragment strict scopes fragment
    let others ← renderList strict scopes rest
    .ok (first ++ others)

end

def render (strict : Bool) (code : String) (context : Json) : Except RenderError String :=
  match parse code with
  | none => .error .malformed
  | some fragments => renderList strict [⟨context, []⟩] fragments

end LayeredTags.Mustache
