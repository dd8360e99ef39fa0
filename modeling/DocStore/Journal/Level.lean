import DocStore.Text.Blank

/-!
Levels of log records, from the least severe to the most.
-/

namespace DocStore

/-- A level. -/
inductive Level where
  | debug
  | info
  | warning
  | error
  | critical
  deriving DecidableEq

namespace Level

/-- The name of a level. -/
def name : Level → Text
  | .debug => "DEBUG"
  | .info => "INFO"
  | .warning => "WARNING"
  | .error => "ERROR"
  | .critical => "CRITICAL"

/-- How severe a level is. -/
def weight : Level → Nat
  | .debug => 10
  | .info => 20
  | .warning => 30
  | .error => 40
  | .critical => 50

/-- All levels, from the least severe. -/
def list : List Level := [.debug, .info, .warning, .error, .critical]

/-- The level of a name. -/
def ofName? (name : Text) : Option Level := list.find? fun level => level.name = name

/-- The capital letter of a code point, as far as the names of levels are concerned: besides the
ASCII letters the dotless i and the long s have an ASCII capital. -/
def capital (c : CodePoint) : CodePoint :=
  if 0x61 ≤ c.val ∧ c.val ≤ 0x7a then CodePoint.ofNat (c.val - 0x20)
  else if c.val = 0x131 then 'I'
  else if c.val = 0x17f then 'S'
  else c

/-- The level that a text names in either case of letters, with a short name for warnings. Other
texts, and none, name the default. -/
def parse (raw : Option Text) (fallback : Level) : Level :=
  let name := ((raw.getD []).strip).map capital
  if name = ("WARN" : Text) then .warning else (ofName? name).getD fallback

end Level

end DocStore
