import CascadeLens.Pattern.Compile

/-! Naming conventions of classes that need no rule in a project: utility and icon classes, states
and hooks of scripts, and generated names. A name that follows one of them is not missed. -/

namespace CascadeLens

open Text

/-- The conventions as written. -/
def conventionTexts : List String := [
  -- spacing, typography and colour
  "^-?(p|m)[xytrblse]?-\\d+",
  "^text-(xs|sm|base|lg|xl|\\d+xl)",
  "^text-(black|white|gray|red|blue|green|yellow|indigo|purple|pink)",
  "^bg-(black|white|gray|red|blue|green|yellow|indigo|purple|pink)",
  "^font-(sans|serif|mono|bold|medium|light)",
  -- layout
  "^flex", "^grid", "^block", "^hidden", "^inline",
  -- sizing
  "^w-\\d+", "^h-\\d+", "^w-full", "^h-full", "^min-w", "^max-w",
  -- decoration
  "^border", "^rounded", "^shadow",
  -- alignment
  "^items-", "^justify-", "^place-", "^gap-",
  -- position
  "^absolute", "^relative", "^fixed", "^sticky",
  "^top-", "^bottom-", "^left-", "^right-", "^z-",
  -- interaction and transitions
  "^opacity-", "^cursor-", "^pointer-events-",
  "^transition", "^duration-", "^ease-",
  -- variants
  "^hover:", "^focus:", "^active:", "^group-hover:",
  "^sm:", "^md:", "^lg:", "^xl:", "^2xl:",
  -- components of a framework
  "^col-", "^row", "^container", "^btn-", "^alert-", "^card-",
  "^navbar-", "^nav-", "^dropdown-", "^modal-", "^tab-", "^form-",
  -- icon fonts
  "^fa-", "^fa[srlbdk]?$", "^icon-", "^material-", "^bi-", "^ri-", "^bx-",
  "^glyphicon",
  -- states and hooks of scripts
  "^js-", "^is-", "^has-", "^active", "^open", "^show", "^visible",
  -- animation
  "^animate__", "^animated$", "^aos-", "^fade", "^slide", "^zoom",
  -- helpers
  "^u-", "^util-", "^helper-",
  -- a name, a local name and a hash, with underscores between them
  "^[A-Za-z][A-Za-z0-9-]*_\x7b1,2\x7d[A-Za-z0-9-]+_\x7b1,3\x7d(?=[A-Za-z-]*\\d)[A-Za-z0-9-]\x7b5,\x7d$",
  -- generated names
  "^css-[a-z0-9]\x7b4,\x7d", "^sc-[A-Za-z]", "^jsx-\\d+", "^emotion-", "^styled-",
  "^makeStyles-", "^Mui[A-Z]", "^chakra-", "^svelte-[a-z0-9]+$"]

def conventions : List Pattern :=
  conventionTexts.filterMap fun written => Pattern.compile? written.toList

/-- Whether a class follows a convention or passes one of the further tests. A dot in front of the
name does not count. -/
def isExempt (tests : List (Text → Bool)) (name : Text) : Bool :=
  let name :=
    match name with
    | '.' :: rest => rest
    | _ => name
  conventions.any (·.occursIn name) || tests.any (· name)

/-- Whether a class follows a convention or one of the further patterns. -/
def isConventional (further : List Pattern) (name : Text) : Bool :=
  isExempt (further.map Pattern.occursIn) name

end CascadeLens
