/-!
# Choices of the user

The named alternatives a user picks from. A name is recognised whatever the case of its ASCII
letters; nothing else is changed before it is compared, so a blank makes a name unknown.
-/
namespace CubePatch

/-- The routine of the game that calls the code handler once in a while. -/
inductive HookKind where
  | video
  | graphics
  | controller
  deriving DecidableEq, Repr

/-- Where the user wants handler and codes to be. -/
inductive PlacementChoice where
  | automatic
  | legacy
  | arena
  deriving DecidableEq, Repr

/-- Where handler and codes are: at the handler's own address with the codes behind it, or in a free
gap with a loader that starts before the game. -/
inductive Placement where
  | legacy
  | arena
  deriving DecidableEq, Repr

inductive HandlerVariant where
  | mini
  | full
  deriving DecidableEq, Repr

/-- Which lines of a text code list with marked codes are taken. -/
inductive TextSelection where
  | active
  | all
  deriving DecidableEq, Repr

/-- The four kinds of named choices. -/
inductive ChoiceKind where
  | hook
  | placement
  | handler
  | selection
  deriving DecidableEq, Repr

/-- A name that is none of the alternatives. -/
structure UnknownName where
  kind : ChoiceKind
  text : String
  deriving DecidableEq, Repr

def UnknownName.message (fault : UnknownName) : String :=
  match fault.kind with
  | .hook => "invalid hook type: " ++ fault.text
  | .placement => "invalid code placement: " ++ fault.text
  | .handler => "invalid code handler: " ++ fault.text
  | .selection => "invalid text code selection: " ++ fault.text

/-- The alternative with the given name. -/
def chooseNamed (kind : ChoiceKind) (name : α → String) (alternatives : List α) (text : String) :
    Except UnknownName α :=
  match alternatives.find? fun alternative => name alternative = text.map Char.toUpper with
  | some alternative => .ok alternative
  | none => .error ⟨kind, text⟩

namespace HookKind

def name : HookKind → String
  | .video => "VI"
  | .graphics => "GX"
  | .controller => "PAD"

def ofName : String → Except UnknownName HookKind :=
  chooseNamed .hook name [.video, .graphics, .controller]

end HookKind

def Placement.name : Placement → String
  | .legacy => "LEGACY"
  | .arena => "ARENA"

namespace PlacementChoice

def name : PlacementChoice → String
  | .automatic => "AUTO"
  | .legacy => Placement.legacy.name
  | .arena => Placement.arena.name

def ofName : String → Except UnknownName PlacementChoice :=
  chooseNamed .placement name [.automatic, .legacy, .arena]

end PlacementChoice

namespace HandlerVariant

def name : HandlerVariant → String
  | .mini => "MINI"
  | .full => "FULL"

def ofName : String → Except UnknownName HandlerVariant :=
  chooseNamed .handler name [.mini, .full]

end HandlerVariant

namespace TextSelection

def name : TextSelection → String
  | .active => "ACTIVE"
  | .all => "ALL"

def ofName : String → Except UnknownName TextSelection :=
  chooseNamed .selection name [.active, .all]

end TextSelection

/-- Everything that decides how codes end up in an image. -/
structure PatchSettings where
  /-- Bytes reserved for handler and codes. -/
  allocation : Option UInt32 := none
  initAddress : Option UInt32 := none
  /-- Used instead of a search for a hook. -/
  hookAddress : Option UInt32 := none
  hookKind : HookKind := .video
  placement : PlacementChoice := .automatic
  /-- Write what can be written into the image ahead of time. -/
  optimize : Bool := false
  /-- Keep the game from replacing the code handler. -/
  protect : Bool := false
  encrypt : Bool := false
  /-- What the encryption key is drawn from. -/
  seed : UInt64 := 0
  deriving DecidableEq, Repr

end CubePatch
