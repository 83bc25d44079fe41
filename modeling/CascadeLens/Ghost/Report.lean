import CascadeLens.Ghost.Convention
import CascadeLens.Match
import CascadeLens.Target.Identity

/-! Ghost classes: classes in the markup that no rule of the project is about. -/

namespace CascadeLens

open Text

/-- The class that a reason names, if it names one. -/
def classOfReason? (reason : Text) : Option Text :=
  match cut ':' reason with
  | (kind, some value) =>
    if trim kind == "class".toList && !blank value then some (trim value) else none
  | _ => none

/-- The classes that a match is about: those its reasons name, and those that stand somewhere in
its selector, which finds classes inside of function arguments. -/
def Match.classesAmong (found : Match) (classes : List Text) : List Text :=
  found.reasons.filterMap classOfReason? ++ classes.filter fun name => holds name found.selector

def definedClasses (classes : List Text) (found : List Match) : List Text :=
  distinct (found.flatMap (·.classesAmong classes))

structure GhostReport where
  ghosts : List Text := []
  defined : List Text := []
  total : Nat := 0
deriving Repr, DecidableEq

namespace GhostReport

def hasGhosts (report : GhostReport) : Bool := !report.ghosts.isEmpty

/-- The report on the classes of a target. Classes that follow a convention or pass a further test
are not missed. -/
def of (identity : Identity) (found : List Match) (tests : List (Text → Bool)) : GhostReport :=
  let defined := definedClasses identity.classes found
  { ghosts := identity.classes.filter fun name =>
      !defined.contains name && !isExempt tests name
    defined := identity.classes.filter defined.contains
    total := identity.classes.length }

/-- The report with further patterns as written in some language, `none` if one of them is none.
Without classes the patterns do not matter. -/
def ofTexts? (identity : Identity) (found : List Match) (further : List Text)
    (language : PatternLanguage := Pattern.language) : Option GhostReport :=
  if identity.classes.isEmpty then some {}
  else (further.mapM language).map (of identity found)

end GhostReport

end CascadeLens
