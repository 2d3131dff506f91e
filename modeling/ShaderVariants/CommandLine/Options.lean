import ShaderVariants.Path

/-!
# Arguments

The arguments of the program: an input file, an output directory and options
anywhere among them. Arguments are read from left to right and the first thing
that settles the matter counts: a request for help or for the version, or a
fault.
-/

namespace ShaderVariants.CommandLine

/-- What a run is asked to do. -/
structure Options where
  input : Path
  outputDir : Path
  /-- The namespace of the generated types, over that of the settings file. -/
  namespacePath : Option Text := none
  settingsFile : Option Path := none
  check : Bool := false
  verbose : Bool := false
deriving DecidableEq, Repr

/-- Why the arguments ask for no run. -/
inductive Stop where
  | help
  | version
  | usageFault
deriving DecidableEq, Repr

/-- An option that stands alone. -/
inductive Flag where
  | check
  | verbose
  | help
  | version
deriving DecidableEq, Repr

/-- An option that takes a value. -/
inductive Key where
  | namespacePath
  | settingsFile
deriving DecidableEq, Repr

/-- An option of either kind. -/
abbrev Switch := Flag ⊕ Key

/-- The options by their long names. -/
def longNames : List (Text × Switch) :=
  [("check", .inl .check), ("verbose", .inl .verbose), ("help", .inl .help),
    ("version", .inl .version), ("namespace", .inr .namespacePath), ("config", .inr .settingsFile)]

/-- The options by their letters. -/
def letters : List (Char × Switch) :=
  [('v', .inl .verbose), ('h', .inl .help), ('V', .inl .version), ('n', .inr .namespacePath),
    ('c', .inr .settingsFile)]

/-- The arguments read so far. -/
structure Draft where
  input : Option Path := none
  outputDir : Option Path := none
  namespacePath : Option Text := none
  settingsFile : Option Path := none
  check : Bool := false
  verbose : Bool := false
  /-- The option whose value comes next. -/
  waiting : Option Key := none
  /-- No argument is an option any more. -/
  onlyPaths : Bool := false

namespace Draft

/-- A path that is not empty. -/
def pathOf (t : Text) : Except Stop Path := if t = [] then .error .usageFault else .ok ⟨.ofText t⟩

/-- Takes a flag. None of those for a run is given twice. -/
def addFlag (d : Draft) : Flag → Except Stop Draft
  | .help => .error .help
  | .version => .error .version
  | .check => if d.check then .error .usageFault else .ok { d with check := true }
  | .verbose => if d.verbose then .error .usageFault else .ok { d with verbose := true }

/-- Takes the value of an option. None is given twice. -/
def addValue (d : Draft) (key : Key) (value : Text) : Except Stop Draft :=
  match key with
  | .namespacePath =>
    if d.namespacePath.isSome then .error .usageFault
    else .ok { d with namespacePath := some value, waiting := none }
  | .settingsFile =>
    if d.settingsFile.isSome then .error .usageFault
    else (pathOf value).map fun p => { d with settingsFile := some p, waiting := none }

/-- Takes a path: the input first, then the output directory. -/
def addPath (d : Draft) (t : Text) : Except Stop Draft :=
  match d.input, d.outputDir with
  | none, _ => (pathOf t).map fun p => { d with input := some p }
  | some _, none => (pathOf t).map fun p => { d with outputDir := some p }
  | some _, some _ => .error .usageFault

/-- Takes an option by its long name, with a value behind an equals sign or without. -/
def addLong (d : Draft) (t : Text) : Except Stop Draft :=
  let (name, attached) := t.span (· != '=')
  match longNames.lookup name, attached with
  | some (.inl flag), [] => d.addFlag flag
  | some (.inr key), [] => .ok { d with waiting := some key }
  | some (.inr key), _ :: value => d.addValue key value
  | _, _ => .error .usageFault

/-- Takes options by their letters. The first that takes a value takes what is left, less an
    equals sign in front, or else the next argument. -/
def addLetters (d : Draft) : Text → Except Stop Draft
  | [] => .ok d
  | c :: rest =>
    match letters.lookup c with
    | none => .error .usageFault
    | some (.inl flag) => (d.addFlag flag).bind fun d => d.addLetters rest
    | some (.inr key) =>
      match rest with
      | [] => .ok { d with waiting := some key }
      | '=' :: value => d.addValue key value
      | value => d.addValue key value

/-- The argument is an option and neither a path nor a value. -/
def isOption : Text → Bool
  | '-' :: _ :: _ => true
  | _ => false

def add (d : Draft) (argument : Text) : Except Stop Draft :=
  if d.onlyPaths then d.addPath argument
  else
    match d.waiting with
    | some key => if isOption argument then .error .usageFault else d.addValue key argument
    | none =>
      match argument with
      | ['-', '-'] => .ok { d with onlyPaths := true }
      | '-' :: '-' :: t => d.addLong t
      | '-' :: c :: t => d.addLetters (c :: t)
      | _ => d.addPath argument

/-- The options, if both paths are given and no value is missing. -/
def finish (d : Draft) : Except Stop Options :=
  match d.waiting, d.input, d.outputDir with
  | none, some input, some outputDir =>
    .ok ⟨input, outputDir, d.namespacePath, d.settingsFile, d.check, d.verbose⟩
  | _, _, _ => .error .usageFault

end Draft

def Options.parse (arguments : List Text) : Except Stop Options :=
  (arguments.foldlM Draft.add ({} : Draft)).bind Draft.finish

end ShaderVariants.CommandLine
