import ArchGraph.Digest
import ArchGraph.Pattern.Basic
/-!
# Globs of ignore files

Globs that select paths. `?` stands for one byte and `*` for any number of bytes other than a
slash, `[…]` for a byte of a class, `{…,…}` for one of several globs, and a backslash takes away
the meaning of the character behind it. `**` stands for any number of directories, in front of a
slash, behind one, or between two; anywhere else it is two stars. A glob is matched against the
bytes of a whole path. This is the documented behaviour of the globs of ignore files; a glob is
taken never to be so long that it exceeds what its pattern may take up.
-/

namespace ArchGraph.Ignore

open Text (Chars)

/-- A part of a glob. -/
inductive Part where
  | literal (c : Char)
  | anyByte
  | anyRun
  /-- Any directories in front of what follows. -/
  | leading
  /-- Anything below a directory. -/
  | trailing
  /-- A slash, or directories between two slashes. -/
  | between
  | oneOf (negated : Bool) (ranges : List (Char × Char))
  | branches (globs : List (List Part))

/-! ## Reading globs -/

/-- Reads the ranges of a class up to its closing bracket. `ranges` are those that were read so
far, the last one first; `first` says that nothing was read yet, and `opened` that a dash
stands behind the last range. -/
def ranges? (ranges : List (Char × Char)) (first opened : Bool) :
    Chars → Option (List (Char × Char) × Chars)
  | [] => none
  | c :: rest =>
    if c = ']' && !first then
      some ((if opened then ('-', '-') :: ranges else ranges).reverse, rest)
    else if c = '-' && !first && !opened then ranges? ranges false true rest
    else
      match opened, ranges with
      | true, (low, _) :: more =>
        if c < low then none else ranges? ((low, c) :: more) false false rest
      | _, _ => ranges? ((c, c) :: ranges) false false rest

/-- Reads a class behind its opening bracket. -/
def class? : Chars → Option (Part × Chars)
  | [] => none
  | c :: rest =>
    if c = '!' || c = '^' then
      (ranges? [] true false rest).map fun (ranges, rest) => (.oneOf true ranges, rest)
    else (ranges? [] true false (c :: rest)).map fun (ranges, rest) => (.oneOf false ranges, rest)

/-- What has been read of a glob: the character before the rest, and for every open brace, the
innermost first, the globs inside it, the last one first, each with its last part first. -/
structure Reader where
  previous : Option Char
  levels   : List (List (List Part))

namespace Reader

/-- Nothing has been read. -/
def start : Reader := ⟨none, [[[]]]⟩

/-- Whether a brace is open. -/
def isNested (r : Reader) : Bool := 1 < r.levels.length

/-- The parts of the glob that is being read, the last one first. -/
def parts (r : Reader) : List Part := (r.levels.headD []).headD []

/-- Replaces the parts of the glob that is being read. -/
def setParts (r : Reader) (parts : List Part) : Reader :=
  match r.levels with
  | (_ :: globs) :: outer => { r with levels := (parts :: globs) :: outer }
  | _ => r

/-- Adds parts behind a character. -/
def push (r : Reader) (previous : Char) (parts : List Part) : Reader :=
  { r.setParts (parts.reverse ++ r.parts) with previous := some previous }

/-- Starts another glob inside the innermost brace. -/
def branch (r : Reader) : Reader :=
  match r.levels with
  | globs :: outer => ⟨some ',', ([] :: globs) :: outer⟩
  | [] => r

/-- Closes the innermost brace. -/
def close? (r : Reader) : Option Reader :=
  match r.levels with
  | globs :: (parts :: more) :: outer =>
    some ⟨some '}', ((.branches (globs.reverse.map List.reverse) :: parts) :: more) :: outer⟩
  | _ => none

/-- Adds two stars behind a slash: `part`, in the place of the slash, unless directories are
passed over there already. -/
def pushDirs (r : Reader) (previous : Char) (part : Part) : Reader :=
  match r.parts with
  | .leading :: _ | .trailing :: _ => { r with previous := some previous }
  | parts => { r.setParts (part :: parts.tail) with previous := some previous }

/-- Reads two stars in front of `rest`. -/
def stars (r : Reader) (rest : Chars) : Reader × Chars :=
  let plain := (r.push '*' [.anyRun, .anyRun], rest)
  if r.parts.isEmpty then
    match rest with
    | [] => (r.push '*' [.leading], [])
    | '/' :: behind => (r.push '/' [.leading], behind)
    | _ => plain
  else if r.previous ≠ some '/' &&
      !(r.isNested && (r.previous = some ',' || r.previous = some '{')) then
    plain
  else
    match rest with
    | [] => (r.pushDirs '*' .trailing, [])
    | '/' :: behind => (r.pushDirs '/' .between, behind)
    | c :: _ =>
      if r.isNested && (c = ',' || c = '}') then (r.pushDirs '*' .trailing, rest) else plain

/-- Reads what starts with a character. -/
def step? (r : Reader) (c : Char) (rest : Chars) : Option (Reader × Chars) :=
  match c with
  | '?' => some (r.push c [.anyByte], rest)
  | '*' =>
    match rest with
    | '*' :: rest => some (r.stars rest)
    | _ => some (r.push c [.anyRun], rest)
  | '[' => (class? rest).map fun (part, rest) => (r.push ']' [part], rest)
  | '{' => some (⟨some c, [[]] :: r.levels⟩, rest)
  | '}' => r.close?.map fun r => (r, rest)
  | ',' => some (if r.isNested then r.branch else r.push c [.literal c], rest)
  | '\\' =>
    match rest with
    | [] => none
    | c :: rest => some (r.push c [.literal c], rest)
  | _ => some (r.push c [.literal c], rest)

/-- Reads up to the end of a glob, where no brace may be open. -/
def run? : Nat → Reader → Chars → Option (List Part)
  | _, r, [] => if r.isNested then none else some r.parts.reverse
  | 0, _, _ => none
  | fuel + 1, r, c :: rest => (r.step? c rest).bind fun (r, rest) => run? fuel r rest

end Reader

/-- The parts of a glob, if it is well formed. -/
def parts? (glob : Chars) : Option (List Part) := Reader.start.run? glob.length glob

/-! ## Matching -/

/-- The bytes of a text, each as the character with its number. -/
def bytes (text : Chars) : Chars :=
  (Digest.utf8 (String.ofList text)).map fun b => Char.ofNat b.toNat

/-- The ranges of bytes of a range of characters. Of the bytes of its ends, only the neighbours
form a range. -/
def byteRanges (range : Char × Char) : List (Char × Char) :=
  let low := bytes [range.1]
  let high := bytes [range.2]
  if range.1 = range.2 then low.map fun b => (b, b)
  else
    (low.dropLast ++ high.tail).map (fun b => (b, b)) ++
      [(low.getLastD range.1, high.headD range.2)]

/-- Any byte but a slash. -/
def isNameByte (b : Char) : Bool := b ≠ '/'

mutual

/-- The pattern of a part. -/
def Part.pattern : Part → Pattern
  | .literal c => .lit (String.ofList (bytes [c]))
  | .anyByte => .one isNameByte
  | .anyRun => .many isNameByte 0
  | .leading => .alt (.opt (.char '/')) (.many (fun _ => true) 0 ++ .char '/')
  | .trailing => .char '/' ++ .many (fun _ => true) 0
  | .between => .alt (.char '/') (.char '/' ++ .many (fun _ => true) 0 ++ .char '/')
  | .oneOf negated ranges =>
    let byteRanges := ranges.flatMap byteRanges
    .one fun b => (byteRanges.any fun r => r.1 ≤ b && b ≤ r.2) != negated
  | .branches globs =>
    match branchPatterns globs with
    | [] => .nothing
    | ps => .oneOf ps

/-- The pattern of parts behind each other. -/
def partsPattern : List Part → Pattern
  | [] => .nothing
  | p :: ps => p.pattern ++ partsPattern ps

/-- The patterns of the globs that are not empty. -/
def branchPatterns : List (List Part) → List Pattern
  | [] => []
  | [] :: globs => branchPatterns globs
  | (p :: ps) :: globs => (p.pattern ++ partsPattern ps) :: branchPatterns globs

end

/-- The pattern that parts match a whole text by. Directories alone match everything. -/
def globPattern (parts : List Part) : Pattern :=
  match parts with
  | [.leading] => .many (fun _ => true) 0 ++ .look .textEnd
  | _ => partsPattern parts ++ .look .textEnd

/-- Whether a pattern matches the bytes of a path. -/
def selects (p : Pattern) (path : Chars) : Bool :=
  (p.matchAt? (Cursor.start (bytes path))).isSome

end ArchGraph.Ignore
