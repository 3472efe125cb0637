import Std.Data.HashMap
import ModCatalog.ClassFile.Record
import ModCatalog.Fault

/-!
# Sanitizing

Rules that take what no other mod can use out of the classes of an artifact.  Each rule sees one
class and the untouched records of all classes of the artifact, so neither the order of the rules
nor that of the classes matters to what it takes out.
-/

namespace ModCatalog

open ClassFile

/-- The class of an artifact with a name, as it was before any rule. -/
abbrev Siblings := String → Option ClassRecord

/-- A rule changes a class or drops it; one that gives up stops the whole task. -/
structure SanitizingRule where
  name : String
  apply : Siblings → ClassRecord → Except Fault (Option ClassRecord)

namespace SanitizingRule

/-- Keep the visible fields and methods. -/
def dropPrivate : SanitizingRule where
  name := "drop-private"
  apply _ record := .ok <| some { record with
    fields := record.fields.filter fun field => field.2.access.isVisible
    methods := record.methods.filter fun method => method.2.access.isVisible }

/-- How the names of methods begin that stand for function literals. -/
def lambdaMark : String := "lambda$"

/-- Whether a method stands for a function literal. -/
def isLambda (method : MemberInfo) : Bool := lambdaMark.toList.isPrefixOf method.name.toList

/-- Drop the methods that stand for function literals. -/
def dropLambdas : SanitizingRule where
  name := "drop-synthetic-lambda"
  apply _ record := .ok <| some { record with
    methods := record.methods.filter fun method => !isLambda method.2 }

/-- Whether a use of a member with some access, declared in `owner`, tells nothing about other
mods. -/
def isInternalUse (owner : ClassRecord) (access : Access) : Bool :=
  access.isStatic || !access.isVisible || owner.isRoot

/-- Whether a reference tells something about other mods. -/
def keepsReference (siblings : Siblings) (reference : Reference) : Bool :=
  match siblings reference.owner with
  | none => true
  | some owner =>
      match owner.memberAccess? reference.member reference.kind with
      | none => true
      | some access => !isInternalUse owner access

/-- Drop the uses of members of the same artifact that tell nothing about other mods. -/
def dropSelfReferences : SanitizingRule where
  name := "drop-self-references"
  apply siblings record := .ok <| some { record with
    references := record.references.filter fun entry => keepsReference siblings entry.1 }

/-- Whether a simple name is that of an anonymous class: it ends in a dollar sign and digits. -/
def isAnonymousName (name : List Char) : Bool :=
  (name.reverse.takeWhile Char.isDigit) ≠ [] &&
    (name.reverse.dropWhile Char.isDigit).head? = some '$'

def dropAnonymous : SanitizingRule where
  name := "drop-anonymous-classes"
  apply _ record := .ok (if isAnonymousName record.simpleNameChars then none else some record)

end SanitizingRule

/-- Rules in the order in which they are applied. -/
structure Sanitizer where
  rules : List SanitizingRule

namespace Sanitizer

def standard : Sanitizer where
  rules := [.dropPrivate, .dropLambdas, .dropSelfReferences, .dropAnonymous]

def passthrough : Sanitizer := ⟨[]⟩

/-- The classes by name; of several with one name the last. -/
def siblingsOf (classes : List ClassRecord) : Siblings :=
  let byName : Std.HashMap String ClassRecord :=
    classes.foldl (fun map record => map.insert record.name record) ∅
  fun name => byName[name]?

/-- Apply rules one after another until one drops the class. -/
def applyRules (siblings : Siblings) : List SanitizingRule → ClassRecord →
    Except Fault (Option ClassRecord)
  | [], record => .ok (some record)
  | rule :: rules, record => do
      match ← rule.apply siblings record with
      | none => return none
      | some record => applyRules siblings rules record

def applyAll (siblings : Siblings) (rules : List SanitizingRule) : List ClassRecord →
    Except Fault (List ClassRecord)
  | [] => .ok []
  | record :: rest => do
      let kept ← applyRules siblings rules record
      let others ← applyAll siblings rules rest
      return kept.toList ++ others

/-- What the rules leave of the classes of an artifact. -/
def sanitize (sanitizer : Sanitizer) (classes : List ClassRecord) :
    Except Fault (List ClassRecord) :=
  applyAll (siblingsOf classes) sanitizer.rules classes

def ruleNames (sanitizer : Sanitizer) : List String := sanitizer.rules.map SanitizingRule.name

end Sanitizer

end ModCatalog
