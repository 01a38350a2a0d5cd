import ArchGraph.Text.Lines
/-!
# Arguments

What a list of arguments asks for. Switches have a long name, some a letter, and some take a value;
letters can be put together, and the last of them may have its value attached. Two dashes end the
switches. No switch may be given twice at one level: in front of the command, or behind it. These
are the documented conventions of the reader of arguments; what it prints about a usage that is
wrong is left out. Main statement: the directories of a request are never empty texts.
-/

namespace ArchGraph.CommandLine

open Text (Chars)

/-- Why arguments are not carried out. -/
inductive Refusal where
  /-- Only the usage is asked for. -/
  | help
  /-- The usage is wrong. -/
  | usage
deriving DecidableEq, Repr

/-- A switch. -/
structure Switch where
  name       : String
  letter     : Option Char
  takesValue : Bool
  /-- Whether its value may be the empty text. -/
  mayBeEmpty : Bool
deriving DecidableEq, Repr

namespace Switch

/-- A switch without a value. -/
def plain (name : String) (letter : Option Char) : Switch := ⟨name, letter, false, true⟩

/-- A switch whose value is a path. -/
def path (name : String) (letter : Char) : Switch := ⟨name, some letter, true, false⟩

/-- The switch that asks for the usage. -/
def help : Switch := plain "help" (some 'h')

/-- The switches that are known everywhere. -/
def common : List Switch := [plain "verbose" (some 'v'), path "config" 'c', help]

/-- The switches of an analysis. -/
def ofAnalyze : List Switch :=
  common ++
    [⟨"project", some 'p', true, true⟩, path "output" 'o', plain "summary" (some 's')]

/-- The switches of the command that prints settings. -/
def ofConfig : List Switch := common ++ [plain "defaults" none]

end Switch

/-- The switches that were given, with their values. -/
abbrev Given := List (String × String)

namespace Given

/-- The value of a switch. -/
def value? (g : Given) (name : String) : Option String := g.lookup name

/-- Whether a switch was given. -/
def has (g : Given) (name : String) : Bool := (g.lookup name).isSome

/-- Adds a switch with its value. -/
def add (g : Given) (s : Switch) (value : String) : Except Refusal Given :=
  if g.has s.name || (value = "" && !s.mayBeEmpty) then .error .usage
  else if s = Switch.help then .error .help
  else .ok ((s.name, value) :: g)

end Given

/-- What has been read of switches: those that were given, and the one that waits for its value. -/
abbrev Read := Given × Option Switch

/-- Reads a switch by its name, with the value behind an equals sign if there is one. -/
def readName (known : List Switch) (g : Given) (written : Chars) : Except Refusal Read :=
  let name := written.takeWhile (· != '=')
  match known.find? (·.name.toList == name), written.drop name.length with
  | none, _ => .error .usage
  | some s, [] => if s.takesValue then .ok (g, some s) else (g.add s "").map fun g => (g, none)
  | some s, _ :: value =>
    if s.takesValue then (g.add s (String.ofList value)).map fun g => (g, none) else .error .usage

/-- Reads letters of switches. What stands behind a letter that takes a value is its value, behind
an equals sign or not. -/
def readLetters (known : List Switch) (g : Given) : Chars → Except Refusal Read
  | [] => .ok (g, none)
  | c :: rest =>
    match known.find? (·.letter == some c), rest with
    | none, _ => .error .usage
    | some s, rest =>
      if s.takesValue then
        match rest with
        | [] => .ok (g, some s)
        | '=' :: value => (g.add s (String.ofList value)).map fun g => (g, none)
        | value => (g.add s (String.ofList value)).map fun g => (g, none)
      else
        match g.add s "" with
        | .ok g => readLetters known g rest
        | .error r => .error r

/-- What an argument is. -/
inductive Argument where
  | endOfSwitches
  | name (written : Chars)
  | letters (written : Chars)
  | operand (text : String)
deriving DecidableEq, Repr

/-- The argument with a text. A single dash is an operand. -/
def Argument.ofText (text : String) : Argument :=
  match text.toList with
  | ['-', '-'] => .endOfSwitches
  | '-' :: '-' :: written => .name written
  | '-' :: c :: written => .letters (c :: written)
  | _ => .operand text

/-- Reads the switches in front of a command: those that were given, the command, and the arguments
behind it. -/
def readFront (known : List Switch) (r : Read) :
    List String → Except Refusal (Given × String × List String)
  | [] => .error .usage
  | text :: rest =>
    match r.2, Argument.ofText text with
    | some s, .operand value =>
      match r.1.add s value with
      | .ok g => readFront known (g, none) rest
      | .error e => .error e
    | some _, _ => .error .usage
    | none, .operand command => .ok (r.1, command, rest)
    | none, .endOfSwitches => .error .usage
    | none, .name written =>
      match readName known r.1 written with
      | .ok r => readFront known r rest
      | .error e => .error e
    | none, .letters written =>
      match readLetters known r.1 written with
      | .ok r => readFront known r rest
      | .error e => .error e

/-- Whether operands may be given: any that are not empty, or none at all. -/
def operandsAllowed (allowed : Bool) (operands : List String) : Bool :=
  if allowed then !operands.contains "" else operands.isEmpty

/-- Reads the switches and operands behind a command. -/
def readBack (known : List Switch) (allowed : Bool) (r : Read) :
    List String → Except Refusal (Given × List String)
  | [] => if r.2.isSome then .error .usage else .ok (r.1, [])
  | text :: rest =>
    match r.2, Argument.ofText text with
    | some s, .operand value =>
      match r.1.add s value with
      | .ok g => readBack known allowed (g, none) rest
      | .error e => .error e
    | some _, _ => .error .usage
    | none, .operand text =>
      if operandsAllowed allowed [text] then
        (readBack known allowed r rest).map fun (g, operands) => (g, text :: operands)
      else .error .usage
    | none, .endOfSwitches =>
      if operandsAllowed allowed rest then .ok (r.1, rest) else .error .usage
    | none, .name written =>
      match readName known r.1 written with
      | .ok r => readBack known allowed r rest
      | .error e => .error e
    | none, .letters written =>
      match readLetters known r.1 written with
      | .ok r => readBack known allowed r rest
      | .error e => .error e

theorem operandsAllowed_iff {operands : List String} :
    operandsAllowed true operands = true ↔ "" ∉ operands := by
  simp [operandsAllowed]

/-- Operands that may be given are never empty texts. -/
theorem empty_notMem_of_readBack {known : List Switch} {r : Read} {args : List String} {g : Given}
    {operands : List String} (h : readBack known true r args = .ok (g, operands)) :
    "" ∉ operands := by
  induction args generalizing r operands with
  | nil =>
    simp only [readBack] at h
    split at h <;> simp_all
  | cons text rest ih =>
    simp only [readBack] at h
    split at h
    · split at h
      · exact ih h
      · simp at h
    · simp at h
    · next operand _ _ =>
      split at h
      · next allowed =>
        cases e : readBack known true r rest with
        | error _ => simp [e, Except.map] at h
        | ok p =>
          simp only [e, Except.map, Except.ok.injEq, Prod.mk.injEq] at h
          obtain ⟨rfl, rfl⟩ := h
          have hn := operandsAllowed_iff.1 allowed
          simp only [List.mem_singleton] at hn
          simp only [List.mem_cons, not_or]
          exact ⟨hn, ih e⟩
      · simp at h
    · split at h
      · next allowed =>
        simp only [Except.ok.injEq, Prod.mk.injEq] at h
        exact h.2 ▸ operandsAllowed_iff.1 allowed
      · simp at h
    · split at h
      · exact ih h
      · simp at h
    · split at h
      · exact ih h
      · simp at h

/-- An analysis that is asked for. -/
structure AnalyzeRequest where
  /-- The first directory. -/
  dir     : String
  /-- The other directories. -/
  others  : List String
  project : Option String
  output  : Option String
  /-- Whether only the summary is wanted. -/
  summary : Bool
deriving DecidableEq, Repr

/-- A command. -/
inductive Command where
  | analyze (request : AnalyzeRequest)
  /-- Prints the settings, or the defaults. -/
  | config (defaults : Bool)
deriving DecidableEq, Repr

/-- What arguments ask for. -/
structure Request where
  /-- The file that holds the settings, in the place of the usual ones. -/
  settingsFile : Option String
  verbose      : Bool
  command      : Command
deriving DecidableEq, Repr

namespace Request

/-- The request of a command. A switch behind the command comes before the same one in front of
it. -/
def ofCommand (front back : Given) (c : Command) : Request :=
  ⟨(back.value? "config").or (front.value? "config"), back.has "verbose" || front.has "verbose", c⟩

/-- Reads the arguments of an analysis. -/
def ofAnalyze (front : Given) (args : List String) : Except Refusal Request :=
  match readBack Switch.ofAnalyze true ([], none) args with
  | .error e => .error e
  | .ok (_, []) => .error .usage
  | .ok (g, dir :: others) =>
    .ok (ofCommand front g
      (.analyze ⟨dir, others, g.value? "project", g.value? "output", g.has "summary"⟩))

/-- Reads the arguments of the command that prints settings. -/
def ofConfig (front : Given) (args : List String) : Except Refusal Request :=
  (readBack Switch.ofConfig false ([], none) args).map fun (g, _) =>
    ofCommand front g (.config (g.has "defaults"))

/-- Reads the arguments of the command that prints the usage: the command it is asked of, if any. -/
def ofHelp : List String → Refusal
  | [] => .help
  | [command] => if ["analyze", "config", "help"].contains command then .help else .usage
  | _ => .usage

/-- What arguments ask for. -/
def ofArguments (args : List String) : Except Refusal Request :=
  match readFront Switch.common ([], none) args with
  | .error e => .error e
  | .ok (front, command, rest) =>
    match command with
    | "analyze" => ofAnalyze front rest
    | "config" => ofConfig front rest
    | "help" => .error (ofHelp rest)
    | _ => .error .usage

/-- The directories of an analysis. -/
def dirs : Request → List String
  | ⟨_, _, .analyze r⟩ => r.dir :: r.others
  | _ => []

/-- The directories of a request are never empty texts. -/
theorem empty_notMem_dirs {args : List String} {r : Request}
    (h : ofArguments args = .ok r) : "" ∉ r.dirs := by
  unfold ofArguments at h
  split at h
  · simp at h
  · split at h
    · unfold ofAnalyze at h
      split at h
      · simp at h
      · simp at h
      · next e =>
        simp only [Except.ok.injEq] at h
        subst h
        exact empty_notMem_of_readBack e
    · unfold ofConfig at h
      generalize readBack _ _ _ _ = read at h
      cases read with
      | error _ => simp [Except.map] at h
      | ok p =>
        simp only [Except.map, Except.ok.injEq] at h
        subst h
        simp [dirs, ofCommand]
    · simp at h
    · simp at h

end Request
end ArchGraph.CommandLine
