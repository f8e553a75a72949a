import ArenaServ.TextUtil
import Mathlib.Logic.Function.Basic

/-!
# Configuration files

`Config::Read` reads a file and the files that its lines name, and writes through the same
`Config::operator[]` that looks values up. That takes the value of an environment variable at
the first use of a key since a file was last opened.
-/

namespace ArenaServ

inductive ConfigVariant where
  | int (n : Int32)
  | string (text : List Char)
  deriving DecidableEq, Repr

structure Config where
  filename : List Char
  loadedEnvs : List (List Char)
  values : List Char → Option ConfigVariant

/-- What is left to read of a file. Each line comes with what there is where it names a file:
whether that can be opened, and its lines. -/
inductive ConfigLines where
  | eof
  | line (buf : List Char) (found : Bool) (named rest : ConfigLines)

/-! ## A line -/

namespace Util

def isBlank (c : Char) : Bool := c = ' ' || c = '\t' || c = '\n' || c = '\r'

/-- A text of blanks only stays as it is. -/
def ltrim (str : List Char) : List Char :=
  if str.all isBlank then str else str.dropWhile isBlank

def rtrim (str : List Char) : List Char :=
  if str.all isBlank then str else (str.reverse.dropWhile isBlank).reverse

def trim (str : List Char) : List Char :=
  ((str.dropWhile isBlank).reverse.dropWhile isBlank).reverse

/-- A text up to its terminator. -/
def cString (buf : List Char) : List Char := buf.takeWhile (· ≠ '\x00')

end Util

def escaped : Char → Option Char
  | 't' => some '\t'
  | 'r' => some '\r'
  | 'n' => some '\n'
  | '\\' => some '\\'
  | _ => none

/-- The escapes in a value are replaced; a backslash before anything else stays. -/
def unescape : List Char → List Char
  | [] => []
  | [c] => [c]
  | c :: d :: rest =>
      if c = '\\' then
        match escaped d with
        | some e => e :: unescape rest
        | none => c :: unescape (d :: rest)
      else c :: unescape (d :: rest)

inductive ConfigLine where
  | skipped
  | require (file : List Char)
  | includes (file : List Char)
  | assigns (key val : List Char)

def ConfigLine.ofKey (key val : List Char) : ConfigLine :=
  if key = "REQUIRE".toList then .require val
  else if key = "INCLUDE".toList ∨ key = "INCLUDE_NOWARN".toList then .includes val
  else .assigns key (unescape val)

/-- A line is not used when it is empty, a comment, or without a `=`. -/
def ConfigLine.ofBuf (buf : List Char) : ConfigLine :=
  let line := Util.trim (Util.cString buf)
  if line.length < 1 ∨ line.head? = some '#' then .skipped
  else
    match Util.cutFirst '=' line with
    | none => .skipped
    | some (key, val) => .ofKey (Util.rtrim key) (Util.ltrim val)

/-! ## The configuration -/

section Environment
variable (getenv : List Char → Option (List Char))

/-- `eoserv_config_fromenv`. -/
def configFromenv (key : List Char) : List Char :=
  (getenv (("etheos_".toList ++ Util.cString key).map Char.toUpper)).getD []

namespace Config

def loadFromEnvironment (key : List Char) (c : Config) : Config :=
  if key ∈ c.loadedEnvs then c
  else
    { c with
      values :=
        if (configFromenv getenv key).length ≠ 0 then
          Function.update c.values key (some (.string (configFromenv getenv key)))
        else c.values
      loadedEnvs := c.loadedEnvs ++ [key] }

/-- `operator[]`: the value, and the configuration, which has one for the key then. -/
def lookup (key : List Char) (c : Config) : ConfigVariant × Config :=
  let c := c.loadFromEnvironment getenv key
  let val := (c.values key).getD (.int 0)
  (val, { c with values := Function.update c.values key (some val) })

/-- A value is assigned to what `operator[]` returns. -/
def assign (key val : List Char) (c : Config) : Config :=
  let c := (c.lookup getenv key).2
  { c with values := Function.update c.values key (some (.string val)) }

/-- What `Read` does first, also where the file then cannot be opened. -/
def opening (file : List Char) (c : Config) : Config :=
  { c with loadedEnvs := [], filename := file }

/-- The loop over the lines of a file, and whether it throws. -/
def readLines : ConfigLines → Config → Config × Bool
  | .eof, c => (c, false)
  | .line buf found named rest, c =>
      match ConfigLine.ofBuf buf with
      | .skipped => readLines rest c
      | .require file =>
          if found then
            let r := readLines named (c.opening file)
            if r.2 then r else readLines rest r.1
          else (c.opening file, true)
      | .includes file =>
          readLines rest (if found then (readLines named (c.opening file)).1 else c.opening file)
      | .assigns key val => readLines rest (c.assign getenv key val)

def read (file : List Char) (found : Bool) (lines : ConfigLines) (c : Config) : Config × Bool :=
  if found then c.opening file |>.readLines getenv lines else (c.opening file, true)

end Config

end Environment

inductive ConfigEvent where
  | read (file : List Char) (found : Bool) (lines : ConfigLines)
  | lookup (key : List Char)

def Config.step (getenv : List Char → Option (List Char)) (c : Config) : ConfigEvent → Config
  | .read file found lines => (c.read getenv file found lines).1
  | .lookup key => (c.lookup getenv key).2

def Config.run (getenv : List Char → Option (List Char)) (c : Config)
    (events : List ConfigEvent) : Config :=
  events.foldl (Config.step getenv) c

/-! ## What a file assigns to a key -/

namespace ConfigLines

/-- What the lines leave assigned to a key since a file was last opened, and whether they
throw. -/
def assigned (key : List Char) : ConfigLines → Option (List Char) → Option (List Char) × Bool
  | .eof, val => (val, false)
  | .line buf found named rest, val =>
      match ConfigLine.ofBuf buf with
      | .skipped => assigned key rest val
      | .require _ =>
          if found then
            let r := assigned key named none
            if r.2 then r else assigned key rest r.1
          else (none, true)
      | .includes _ => assigned key rest (if found then (assigned key named none).1 else none)
      | .assigns other val' => assigned key rest (if other = key then some val' else val)

/-- What a file leaves assigned to a key. -/
def finallyAssigned (key : List Char) (found : Bool) (lines : ConfigLines) : Option (List Char) :=
  if found then (lines.assigned key none).1 else none

end ConfigLines

end ArenaServ
