import DocStore.Settings.Environment

/-!
Files of named values. A line binds a name; a value may stand in quotes, with
escapes and over several lines, or end before a comment. Lines that bind nothing
are skipped. References to other names are replaced in every value.
-/

namespace DocStore.Settings.Dotenv

/-- The ends of lines. -/
def isLineEnd (c : CodePoint) : Bool := c = '\n' || c = '\r'

/-- A blank that does not end a line. -/
def isInner (c : CodePoint) : Bool := c.isBlank && !isLineEnd c

/-- A text without the blanks at its beginning that do not end a line. -/
def skipInner (t : Text) : Text := t.dropWhile isInner

/-- The text after the end of a line, however it is written. -/
def afterLineEnd : Text → Text
  | [] => []
  | [_] => []
  | c :: d :: t => if c = '\r' ∧ d = '\n' then t else d :: t

/-- The text after the line that it begins with. -/
def nextLine (t : Text) : Text := afterLineEnd (t.dropWhile fun c => !isLineEnd c)

/-- The text after a comment at its beginning, blanks before it included. -/
def skipComment (t : Text) : Text :=
  match skipInner t with
  | [] => t
  | c :: rest => if c = '#' then rest.dropWhile fun c => !isLineEnd c else t

/-- The text after the end of a line, when nothing else comes before it. -/
def lineEnd? (t : Text) : Option Text :=
  match skipInner t with
  | [] => some []
  | c :: rest => if isLineEnd c then some (afterLineEnd (c :: rest)) else none

/-- The text after the word that may stand before a binding. -/
def skipExport (t : Text) : Text :=
  match t.after? "export" with
  | none => t
  | some [] => t
  | some (c :: rest) => if isInner c then skipInner rest else t

/-- The place where a quoted value ends: the text before the first mark that has no backslash
before it, and the text after it. -/
def plainEnd? (mark : CodePoint) : Bool → Text → Option (Text × Text)
  | _, [] => none
  | escaped, c :: t =>
    if c = mark && !escaped then some ([], t)
    else (plainEnd? mark (c = '\\') t).map fun (inside, rest) => (c :: inside, rest)

/-- The text before the last mark, and the text after it. -/
def lastMark? (mark : CodePoint) : Text → Option (Text × Text)
  | [] => none
  | c :: t =>
    match lastMark? mark t with
    | some (inside, rest) => some (c :: inside, rest)
    | none => if c = mark then some ([], t) else none

/-- A quoted value after its opening mark. It ends at the first mark without a backslash; when
there is none, it ends at the last mark. -/
def quotedValue? (mark : CodePoint) (t : Text) : Option (Text × Text) :=
  (plainEnd? mark false t).or (lastMark? mark t)

/-- What the letters after a backslash stand for. -/
def escapes : List (CodePoint × CodePoint) :=
  [('a', CodePoint.ofNat 0x07), ('b', CodePoint.ofNat 0x08), ('f', CodePoint.ofNat 0x0c),
    ('n', '\n'), ('r', '\r'), ('t', '\t'), ('v', CodePoint.ofNat 0x0b)]

/-- What a backslash and a code point stand for inside a value. -/
def escape? (mark c : CodePoint) : Option CodePoint :=
  if c = '\\' ∨ c = '\'' then some c
  else if mark = '"' then (if c = '"' then some c else escapes.lookup c)
  else none

/-- A quoted value with its escapes read. -/
def unescape (mark : CodePoint) : Text → Text
  | [] => []
  | [c] => [c]
  | c :: d :: t =>
    if c = '\\' then
      match escape? mark d with
      | some e => e :: unescape mark t
      | none => c :: unescape mark (d :: t)
    else c :: unescape mark (d :: t)

/-- A text up to a comment: a hash after a blank. -/
def beforeComment : Bool → Text → Text
  | _, [] => []
  | afterBlank, c :: t =>
    if afterBlank && c = '#' then [] else c :: beforeComment c.isBlank t

/-- A value without quotes, as it stands after the sign. -/
def plainValue (t : Text) : Text := (beforeComment false t).strip

/-- The value at the beginning of a text, which stands right after the sign. -/
def value? (t : Text) : Option (Text × Text) :=
  match skipInner t with
  | [] => some ([], [])
  | c :: rest =>
    if c = '\'' ∨ c = '"' then
      (quotedValue? c rest).map fun (inside, rest) => (unescape c inside, rest)
    else
      let (line, rest) := t.span fun c => !isLineEnd c
      some (plainValue line, rest)

/-- A name without quotes. -/
def isNamePart (c : CodePoint) : Bool := !c.isBlank && c ≠ '=' && c ≠ '#'

/-- The name at the beginning of a text; a comment has none. -/
def name? (t : Text) : Option (Option Text × Text) :=
  match t with
  | [] => none
  | c :: rest =>
    if c = '#' then some (none, t)
    else if c = '\'' then
      match rest.span (fun c : CodePoint => c ≠ '\'') with
      | ([], _) => none
      | (_, []) => none
      | (name, _ :: rest) => some (some name, rest)
    else
      match t.span isNamePart with
      | ([], _) => none
      | (name, rest) => some (some name, rest)

/-- A binding: a name with its value, when there is one. -/
abbrev Binding := Text × Option Text

/-- The end of a binding after its value, or what is left when it does not end there. -/
def finish (binding : Option Binding) (t : Text) : Option Binding × Text :=
  let t := skipComment t
  match lineEnd? t with
  | some rest => (binding, rest)
  | none => (none, nextLine t)

/-- The binding at the beginning of a text that starts with no blank, and the text after it. -/
def binding (t : Text) : Option Binding × Text :=
  let t := skipExport t
  match name? t with
  | none => (none, nextLine t)
  | some (name, t) =>
    match skipInner t with
    | [] => finish (name.map (·, none)) []
    | c :: rest =>
      if c = '=' then
        match value? rest with
        | none => (none, nextLine rest)
        | some (v, rest) => finish (name.map (·, some v)) rest
      else finish (name.map (·, none)) (c :: rest)

/-- The bindings of a text in order; the fuel is its length. -/
def bindingsFrom : Nat → Text → List Binding
  | 0, _ => []
  | fuel + 1, t =>
    match t.dropWhile CodePoint.isBlank with
    | [] => []
    | c :: t =>
      let (found, rest) := binding (c :: t)
      found.toList ++ bindingsFrom fuel rest

/-- The bindings of a text in order. A mark of the byte order at its beginning does not count. -/
def bindings (t : Text) : List Binding :=
  let t := match t with
    | [] => []
    | c :: rest => if c.val = 0xfeff then rest else c :: rest
  bindingsFrom (t.length + 1) t

/-- The reference at the beginning of a text: the name, the text that stands for it when it is
missing, and the text after the reference. -/
def reference? (t : Text) : Option (Text × Text × Text) :=
  match t.after? "$\x7b" with
  | none => none
  | some t =>
    match t.span (fun c : CodePoint => c ≠ '\x7d' && c ≠ ':') with
    | (_, []) => none
    | (name, c :: rest) =>
      if c = '\x7d' then some (name, [], rest)
      else
        match rest with
        | [] => none
        | d :: rest =>
          if d = '-' then
            match rest.span (fun c : CodePoint => c ≠ '\x7d') with
            | (_, []) => none
            | (fallback, _ :: rest) => some (name, fallback, rest)
          else none

/-- A value with its references replaced; the fuel is its length. -/
def expandFrom (look : Text → Option Text) : Nat → Text → Text
  | 0, t => t
  | _ + 1, [] => []
  | fuel + 1, c :: t =>
    match reference? (c :: t) with
    | some (name, fallback, rest) => (look name).getD fallback ++ expandFrom look fuel rest
    | none => c :: expandFrom look fuel t

/-- A value with its references replaced. -/
def expand (look : Text → Option Text) (t : Text) : Text := expandFrom look (t.length + 1) t

/-- What a name stands for inside a value: its value earlier in the file, where a name without one
stands for nothing, or else its value in the environment. -/
def lookUp (env : Environment) (earlier : List Binding) (name : Text) : Option Text :=
  match earlier.lookup name with
  | some v => some (v.getD [])
  | none => env.lookup name

/-- A binding set: in its place when the name is there, at the end when it is new. -/
def set : List Binding → Binding → List Binding
  | [], b => [b]
  | a :: as, b => if a.1 = b.1 then b :: as else a :: set as b

/-- The bindings with their references replaced, each name once. -/
def resolve (env : Environment) (found : List Binding) : List Binding :=
  found.foldl
    (fun earlier (name, v) => set earlier (name, v.map (expand (lookUp env earlier)))) []

/-- The named values of a file, names without a value left out. -/
def values (env : Environment) (t : Text) : Environment :=
  (resolve env (bindings t)).filterMap fun (name, v) => v.map (name, ·)

end DocStore.Settings.Dotenv
