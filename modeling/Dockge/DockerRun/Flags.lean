import Dockge.Data.Text
import Mathlib

namespace Dockge.DockerRun

open Dockge.Data

/-! How a `docker run` command is read: into words, and the words into flags, image and arguments. -/

abbrev Text := List Char

structure ParsedFlag where
  flag : Text
  value : Option Text
deriving DecidableEq, Repr

structure ParsedCommand where
  flags : List ParsedFlag
  image : Option Text
  args : List Text
deriving DecidableEq, Repr

def shortFlags : List (Text × Text) :=
  [("a", "--attach"), ("c", "--cpu-shares"), ("d", "--detach"), ("e", "--env"), ("h", "--hostname"),
    ("i", "--interactive"), ("l", "--label"), ("m", "--memory"), ("p", "--publish"), ("P", "--publish-all"),
    ("q", "--quiet"), ("t", "--tty"), ("u", "--user"), ("v", "--volume"), ("w", "--workdir")].map
      fun (short, long) => (short.toList, long.toList)

/-- Older spellings docker still accepts -/
def longAliases : List (Text × Text) :=
  [("--net", "--network"), ("--net-alias", "--network-alias"), ("--dns-opt", "--dns-option")].map
    fun (older, long) => (older.toList, long.toList)

def booleanNames : List String :=
  ["--detach", "--disable-content-trust", "--help", "--init", "--interactive", "--no-healthcheck",
    "--oom-kill-disable", "--privileged", "--publish-all", "--quiet", "--read-only", "--rm",
    "--sig-proxy", "--tty", "--use-api-socket"]

def valueNames : List String :=
  ["--add-host", "--annotation", "--attach", "--blkio-weight", "--blkio-weight-device", "--cap-add",
    "--cap-drop", "--cgroup-parent", "--cgroupns", "--cidfile", "--cpu-count", "--cpu-percent",
    "--cpu-period", "--cpu-quota", "--cpu-rt-period", "--cpu-rt-runtime", "--cpu-shares", "--cpus",
    "--cpuset-cpus", "--cpuset-mems", "--detach-keys", "--device", "--device-cgroup-rule",
    "--device-read-bps", "--device-read-iops", "--device-write-bps", "--device-write-iops", "--dns",
    "--dns-option", "--dns-search", "--domainname", "--entrypoint", "--env", "--env-file", "--expose",
    "--gpus", "--group-add", "--health-cmd", "--health-interval", "--health-retries",
    "--health-start-interval", "--health-start-period", "--health-timeout", "--hostname",
    "--io-maxbandwidth", "--io-maxiops", "--ip", "--ip6", "--ipc", "--isolation", "--kernel-memory",
    "--label", "--label-file", "--link", "--link-local-ip", "--log-driver", "--log-opt",
    "--mac-address", "--memory", "--memory-reservation", "--memory-swap", "--memory-swappiness",
    "--mount", "--name", "--network", "--network-alias", "--oom-score-adj", "--pid", "--pids-limit",
    "--platform", "--publish", "--pull", "--restart", "--runtime", "--security-opt", "--shm-size",
    "--stop-signal", "--stop-timeout", "--storage-opt", "--sysctl", "--tmpfs", "--ulimit", "--umask",
    "--user", "--userns", "--uts", "--volume", "--volume-driver", "--volumes-from", "--workdir"]

def booleanFlags : List Text := booleanNames.map String.toList

def valueFlags : List Text := valueNames.map String.toList

def dockerRunFlags : List Text := booleanFlags ++ valueFlags

def startsLong : Text → Bool
  | '-' :: '-' :: _ => true
  | _ => false

/-- The long spelling of a flag -/
def canonicalFlag (flag : Text) : Text :=
  if startsLong flag then (longAliases.lookup flag).getD flag
  else (shortFlags.lookup (flag.drop 1)).getD flag

def takesValue (flag : Text) : Bool := canonicalFlag flag ∈ valueFlags

/-- `^-\d` -/
def isNegativeNumber : Text → Bool
  | '-' :: digit :: _ => digit.isDigit
  | _ => false

/-- A flag docker does not know takes the next token, unless that is a flag itself. -/
def longFlagTakesValue (flag : Text) (next : Option Text) : Bool :=
  if canonicalFlag flag ∈ dockerRunFlags then canonicalFlag flag ∈ valueFlags
  else next.any fun token => token.head? ≠ some '-' || isNegativeNumber token

def splitOnce (separator : Char) : Text → Text × Option Text
  | [] => ([], none)
  | char :: rest =>
      if char = separator then ([], some rest)
      else
        let (head, tail) := splitOnce separator rest
        (char :: head, tail)

theorem splitOnce_eq (separator : Char) (text : Text) :
    separator ∉ (splitOnce separator text).1 ∧
      text = (splitOnce separator text).1 ++
        ((splitOnce separator text).2.map (separator :: ·)).getD [] := by
  induction text with
  | nil => exact ⟨by simp [splitOnce], rfl⟩
  | cons char rest ih =>
      rw [splitOnce]
      by_cases same : char = separator
      · rw [if_pos same]
        exact ⟨by simp, by simp [same]⟩
      · rw [if_neg same]
        exact ⟨by simp [ih.1, Ne.symm same], congrArg (char :: ·) ih.2⟩

theorem startsLong_iff {text : Text} : startsLong text = true ↔ ∃ rest, text = '-' :: '-' :: rest := by
  constructor
  · intro long
    unfold startsLong at long
    split at long
    next rest => exact ⟨rest, rfl⟩
    next => cases long
  · intro found
    obtain ⟨rest, rfl⟩ := found
    rfl

theorem startsLong_append {text : Text} (long : startsLong text = true) (rest : Text) : startsLong (text ++ rest) = true := by
  obtain ⟨name, rfl⟩ := startsLong_iff.mp long
  rfl

theorem head_of_startsLong {text : Text} (long : startsLong text = true) : text.head? = some '-' := by
  obtain ⟨name, rfl⟩ := startsLong_iff.mp long
  rfl

/-! ## Into words -/

def isQuote (char : Char) : Bool := char = '"' || char = '\x27'

def isLineEnd (char : Char) : Bool := char = '\n' || char = '\r'

/-- What the loop over the characters holds -/
structure Tokenising where
  current : Text := []
  quote : Option Char := none
  hasContent : Bool := false

/-- A word, once there is something in it -/
def Tokenising.word (state : Tokenising) : List Text :=
  if state.current ≠ [] ∨ state.hasContent then [state.current] else []

def tokeniseFrom (state : Tokenising) : Text → List Text
  | [] => state.word
  | character :: rest =>
      match state.quote with
      | some quote =>
          if character = quote then tokeniseFrom { state with quote := none } rest
          else tokeniseFrom { state with current := state.current ++ [character] } rest
      | none =>
          if isQuote character then tokeniseFrom { state with quote := some character, hasContent := true } rest
          else
            match character, rest with
            | '\\', next :: after =>
                if isLineEnd next then tokeniseFrom state after
                else tokeniseFrom { state with current := state.current ++ ['\\'] } (next :: after)
            | character, rest =>
                if isSpace character then state.word ++ tokeniseFrom {} rest
                else tokeniseFrom { state with current := state.current ++ [character] } rest

def tokeniseCommand (command : Text) : List Text := tokeniseFrom {} command

/-! ## Into flags -/

/-- The flags of a short token, and whether the last of them takes the next token -/
def readLetters (next : Option Text) : Text → List ParsedFlag × Bool
  | [] => ([], false)
  | letter :: rest =>
      match rest with
      | '=' :: value@(_ :: _) => ([⟨['-', letter], some value⟩], false)
      | rest =>
          if takesValue ['-', letter] then
            if rest = [] then ([⟨['-', letter], next⟩], true) else ([⟨['-', letter], some rest⟩], false)
          else
            let (flags, consumedValue) := readLetters next rest
            (⟨['-', letter], none⟩ :: flags, consumedValue)

/-- What one token that begins with a dash is read as -/
structure TokenRead where
  flags : List ParsedFlag
  consumedValue : Bool := false
  guess : Bool := false
deriving DecidableEq, Repr

def readToken (switches : List Nat) (index : Nat) (next : Option Text) (token : Text) : TokenRead :=
  if startsLong token then
    match splitOnce '=' token with
    | (name, some value) => { flags := [⟨name, some value⟩] }
    | (name, none) =>
        if index ∉ switches ∧ longFlagTakesValue name next then
          { flags := [⟨name, next⟩], consumedValue := true, guess := canonicalFlag name ∉ dockerRunFlags }
        else { flags := [⟨name, none⟩] }
  else
    let (flags, consumedValue) := readLetters next (token.drop 1)
    { flags, consumedValue }

structure Reading where
  parsed : ParsedCommand
  guessed : Option Nat
deriving DecidableEq, Repr

/-- The loop behind `run`; `skip` where the token was a value. -/
def readFrom (switches : List Nat) (skip : Bool) (index : Nat) (flags : List ParsedFlag) (guessed : Option Nat) :
    List Text → Reading
  | [] => { parsed := { flags, image := none, args := [] }, guessed }
  | token :: rest =>
      if skip then readFrom switches false (index + 1) flags guessed rest
      else if token.head? ≠ some '-' then { parsed := { flags, image := some token, args := rest }, guessed := none }
      else
        let read := readToken switches index rest.head? token
        readFrom switches read.consumedValue (index + 1) (flags ++ read.flags)
          (if read.guess then some index else guessed) rest

def run : Text := "run".toList

def behindRun (tokens : List Text) : List Text := (tokens.dropWhile (· ≠ run)).tail

/-- One reading of the tokens -/
def readTokens (tokens : List Text) (switches : List Nat) : Reading :=
  readFrom switches false ((tokens.takeWhile (· ≠ run)).length + 1) [] none (behindRun tokens)

/-- The loop of `parseDockerRun`: the switches of its last reading, and how often it read the tokens. -/
def lastReading (tokens : List Text) (switches : List Nat) : Nat → Option (List Nat × Nat)
  | 0 => none
  | fuel + 1 =>
      let reading := readTokens tokens switches
      match reading.parsed.image, reading.guessed with
      | none, some guessed => (lastReading tokens (guessed :: switches) fuel).map fun (last, count) => (last, count + 1)
      | _, _ => some (switches, 1)

/-- The loop ends within one reading more than there are tokens. -/
def lastSwitches (tokens : List Text) : List Nat :=
  ((lastReading tokens [] (tokens.length + 1)).map (·.1)).getD []

def parseDockerRun (command : Text) : ParsedCommand :=
  let tokens := tokeniseCommand command
  (readTokens tokens (lastSwitches tokens)).parsed

end Dockge.DockerRun
