import Dockge.Data.Decimal
import Dockge.Data.JsonPath
import Dockge.DockerRun.Flags

namespace Dockge.DockerRun

open Dockge.Data

/-! The compose service a command becomes, and what is reported of each of its flags. -/

inductive FlagOutcome where
  | carried
  | review
  | dropped
deriving DecidableEq, Repr

structure Verdict where
  outcome : FlagOutcome
  reason : Option String := none
deriving DecidableEq, Repr

namespace Verdict

def carried : Verdict := { outcome := .carried }
def notNeeded : Verdict := { outcome := .carried, reason := "flagNotNeeded" }
def noEquivalent : Verdict := { outcome := .dropped, reason := "flagNoComposeKey" }
def notConverted : Verdict := { outcome := .dropped, reason := "flagNotConverted" }
def notAccepted : Verdict := { outcome := .dropped, reason := "flagNotAccepted" }
def optionsLost : Verdict := { outcome := .dropped, reason := "flagOptionsLost" }
def unknown : Verdict := { outcome := .dropped, reason := "flagUnknown" }
def volumeExternal : Verdict := { outcome := .review, reason := "flagVolumeExternal" }
def networkExternal : Verdict := { outcome := .review, reason := "flagNetworkExternal" }
def dollar : Verdict := { outcome := .review, reason := "flagDollarInterpolated" }
def gpusDropped : Verdict := { outcome := .dropped, reason := "flagGpusDropped" }
def ipNeedsNetwork : Verdict := { outcome := .dropped, reason := "flagIpNeedsNetwork" }

end Verdict

/-- The service keys, and the named volumes the service refers to -/
structure Draft where
  service : Fields
  volumes : List String

def text (value : Text) : Json := .str (String.ofList value)

/-! ## Values -/

/-- `^[A-Za-z0-9][A-Za-z0-9_.-]*$` -/
def isVolumeName : Text → Bool
  | [] => false
  | first :: rest => first.isAlphanum && rest.all fun char => char.isAlphanum || char ∈ ['_', '.', '-']

def isDigits (value : Text) : Bool := value ≠ [] && value.all Char.isDigit

/-- `^-?\d+$` -/
def integer (value : Text) : Option Rat :=
  match value with
  | '-' :: digits => if isDigits digits then some (-(decimalValue digits : Rat)) else none
  | digits => if isDigits digits then some (decimalValue digits : Rat) else none

/-- `^(\d+\.?\d*|\.\d+)$` -/
def decimal (value : Text) : Option Rat :=
  match splitOnce '.' value with
  | (whole, none) => if isDigits whole then some (decimalValue whole : Rat) else none
  | (whole, some part) =>
      if whole.all Char.isDigit && part.all Char.isDigit && (whole ≠ [] || part ≠ []) then
        some (decimalValue whole + (decimalValue part : Rat) / 10 ^ part.length)
      else none

def parseSwitch (value : Text) : Option Bool :=
  let normal := String.ofList (lowerChars value)
  if normal ∈ ["1", "t", "true"] then some true else if normal ∈ ["0", "f", "false"] then some false else none

/-- The loop of `splitFields` -/
def splitFieldsFrom (current : Text) (quoted : Bool) : Text → List Text
  | [] => [current]
  | character :: rest =>
      if character = '"' then
        match quoted, rest with
        | true, '"' :: after => splitFieldsFrom (current ++ ['"']) true after
        | _, rest => splitFieldsFrom current (!quoted) rest
      else if character = ',' ∧ quoted = false then current :: splitFieldsFrom [] quoted rest
      else splitFieldsFrom (current ++ [character]) quoted rest

def splitFields (value : Text) : List Text :=
  ((splitFieldsFrom [] false value).map trimChars).filter (· ≠ [])

/-! ## Writing into the service -/

/-- `object[key] = value`, which never makes a key of this one name -/
def setProperty (fields : Fields) (key : String) (value : Json) : Fields :=
  if key = "__proto__" then fields else fields.set key value

def setAt (draft : Draft) (path : List String) (value : Json) : Draft :=
  { draft with service := updateAt draft.service path fun _ => value }

def append (draft : Draft) (path : List String) (value : Json) : Draft :=
  { draft with service := updateAt draft.service path fun list => .arr (itemsOf list ++ [value]) }

def enter (draft : Draft) (path : List String) (key : Text) (value : Json) : Draft :=
  { draft with service := updateAt draft.service path fun map => .obj (setProperty (fieldsOf map) (String.ofList key) value) }

def declareVolume (draft : Draft) (name : Text) : Draft :=
  { draft with volumes :=
      if String.ofList name ∈ draft.volumes then draft.volumes else draft.volumes ++ [String.ofList name] }

/-! ## Mounts -/

/-- `MOUNT_KEYS[key]`, which every object answers for what it inherits -/
def mountKey (key : String) : Option String :=
  if key = "constructor" then some "function Object() \x7b [native code] \x7d"
  else if key = "__proto__" then some "[object Object]"
  else
    [("type", "type"), ("source", "source"), ("src", "source"), ("target", "target"), ("destination", "target"),
      ("dst", "target"), ("consistency", "consistency")].lookup key

inductive MountResult where
  | carried
  | lost
  | refused
deriving DecidableEq, Repr

/-- The keys of a volume entry, and its sections -/
structure MountEntry where
  entry : Fields := [("type", .str "volume")]
  nested : Fields := []

def mountOption (mount : MountEntry) (key : String) (option : Option Text) : MountEntry × MountResult :=
  if key ∈ ["readonly", "ro", "volume-nocopy"] then
    match parseSwitch (option.getD "true".toList) with
    | none => (mount, .refused)
    | some isOn =>
        if key = "volume-nocopy" then
          ({ mount with nested := mount.nested.set "volume" (.obj [("nocopy", .bool isOn)]) }, .carried)
        else if isOn then ({ mount with entry := mount.entry.set "read_only" (.bool true) }, .carried)
        else (mount, .carried)
  else
    match option, mountKey key with
    | none, _ => (mount, .refused)
    | some value, some target => ({ mount with entry := mount.entry.set target (text value) }, .carried)
    | some value, none =>
        if key = "bind-propagation" then
          ({ mount with nested := mount.nested.set "bind" (.obj [("propagation", text value)]) }, .carried)
        else if key = "tmpfs-size" then
          ({ mount with
              nested := mount.nested.set "tmpfs" (.obj [("size", ((integer value).map .num).getD (text value))]) }, .carried)
        else (mount, .lost)

/-- The option a field of a mount is -/
def mountField (field : Text) : String × Option Text :=
  let (key, option) := splitOnce '=' field
  (String.ofList (lowerChars (trimChars key)), option)

/-- The loop over the fields; nothing where one is refused. -/
def mountFields (mount : MountEntry) (lost : Bool) : List (String × Option Text) → Option (MountEntry × Bool)
  | [] => some (mount, lost)
  | (key, option) :: rest =>
      match mountOption mount key option with
      | (_, .refused) => none
      | (mount, result) => mountFields mount (lost || result = .lost) rest

/-- The entry of a mount, and whether options were lost -/
def mountEntry (value : Text) : Option (Fields × Bool) :=
  match mountFields {} false ((splitFields value).map mountField) with
  | none => none
  | some (mount, lost) =>
      if (mount.entry.get "target").isNone then none
      else some (mount.entry.setAll mount.nested, lost)

/-- The name of the volume, where the entry names one -/
def mountVolume (entry : Fields) : Option Text :=
  match entry.get "type", entry.get "source" with
  | some (.str "volume"), some (.str source) => if isVolumeName source.toList then some source.toList else none
  | _, _ => none

/-! ## Handlers -/

inductive Handler where
  | list (key : String)
  | set (path : List String) (parse : Text → Option Json)
  | toggle (path : List String)
  | uncarried (verdict : Verdict)
  | keyValue (path : List String)
  | file (key reason : String)
  /-- Whatever the value is -/
  | always (verdict : Verdict)
  | volume
  | mount
  | gpus
  | ulimit
  | volumesFrom

/-- What the fields of `--gpus` ask for -/
structure Gpus where
  driver : Text := "nvidia".toList
  amount : Option Json := none
  deviceIds : Option (List Text) := none
  capabilities : List Text := ["gpu".toList]

def splitList (value : Text) : List Text := (splitChars ',' value).map trimChars

def gpuCount (value : Text) : Option Json :=
  if value = "all".toList then some (.str "all") else (integer value).map .num

def gpusField (gpus : Gpus) (field : Text) : Option Gpus :=
  let (key, option) := splitOnce '=' field
  match option with
  | none => (gpuCount key).map fun amount => { gpus with amount := some amount }
  | some option =>
      if key = "count".toList then (gpuCount option).map fun amount => { gpus with amount := some amount }
      else if key = "device".toList then some { gpus with deviceIds := some ((splitList option).filter (· ≠ [])) }
      else if key = "driver".toList then some { gpus with driver := option }
      else if key = "capabilities".toList then
        some { gpus with capabilities := (splitList option ++ ["gpu".toList]).eraseDups }
      else none

def gpusDevice (gpus : Gpus) : Json :=
  let selection : Fields :=
    match gpus.deviceIds, gpus.amount with
    | some deviceIds, _ => [("device_ids", .arr (deviceIds.map text))]
    | none, some amount => [("count", amount)]
    | none, none => []
  .obj ([("driver", text gpus.driver)] ++ selection ++ [("capabilities", .arr (gpus.capabilities.map text))])

def gpusEntry (value : Text) : Option Json := ((splitFields value).foldlM gpusField {}).map gpusDevice

def devicesPath : List String := ["deploy", "resources", "reservations", "devices"]

def keyValueEntry (value : Text) : Option (Text × Json) :=
  match splitOnce '=' value with
  | (key, some entry) => if key = [] then none else some (key, text entry)
  | (_, none) => none

def ulimitEntry (value : Text) : Option (Text × Json) :=
  let (name, limits) := splitOnce '=' value
  let (soft, hard) := splitOnce ':' (limits.getD [])
  if name = [] then none
  else
    match integer soft, hard with
    | none, _ => none
    | some soft, none => some (name, .num soft)
    | some soft, some hard => (integer hard).map fun hard => (name, .obj [("soft", .num soft), ("hard", .num hard)])

namespace Handler

/-- Convert the value of one flag into the draft, and say what came of it. -/
def run (handler : Handler) (value : Text) (draft : Draft) : Verdict × Draft :=
  match handler with
  | list key => (.carried, append draft [key] (text value))
  | set path parse =>
      match parse value with
      | none => (.notAccepted, draft)
      | some parsed => (.carried, setAt draft path parsed)
  | toggle path =>
      match parseSwitch value with
      | none => (.notAccepted, draft)
      | some false => (.notNeeded, draft)
      | some true => (.carried, setAt draft path (.bool true))
  | uncarried verdict =>
      match parseSwitch value with
      | none => (.notAccepted, draft)
      | some isOn => (if isOn then verdict else .notNeeded, draft)
  | keyValue path =>
      match keyValueEntry value with
      | none => (.notAccepted, draft)
      | some (key, entry) => (.carried, enter draft path key entry)
  | file key reason => ({ outcome := .review, reason }, append draft [key] (text value))
  | always verdict => (verdict, draft)
  | volume =>
      let draft := append draft ["volumes"] (text value)
      match splitOnce ':' value with
      | (source, some _) =>
          if isVolumeName source then (.volumeExternal, declareVolume draft source) else (.carried, draft)
      | (_, none) => (.carried, draft)
  | mount =>
      match mountEntry value with
      | none => (.notAccepted, draft)
      | some (entry, lost) =>
          let draft := append draft ["volumes"] (.obj entry)
          match mountVolume entry with
          | some name => (if lost then .optionsLost else .volumeExternal, declareVolume draft name)
          | none => (if lost then .optionsLost else .carried, draft)
  | gpus =>
      match gpusEntry value with
      | none => (.gpusDropped, draft)
      | some device => (.carried, append draft devicesPath device)
  | ulimit =>
      match ulimitEntry value with
      | none => (.notAccepted, draft)
      | some (name, limits) => (.carried, enter draft ["ulimits"] name limits)
  | volumesFrom => (.carried, append draft ["volumes_from"] (text ("container:".toList ++ value)))

end Handler

def asText (value : Text) : Option Json := some (text value)

def asInteger (value : Text) : Option Json := (integer value).map .num

def handlerNames : List (String × Handler) :=
  [("--add-host", .list "extra_hosts"),
    ("--annotation", .always .notConverted),
    ("--attach", .always .notNeeded),
    ("--blkio-weight", .always .notConverted),
    ("--blkio-weight-device", .always .notConverted),
    ("--cap-add", .list "cap_add"),
    ("--cap-drop", .list "cap_drop"),
    ("--cgroup-parent", .set ["cgroup_parent"] asText),
    ("--cgroupns", .set ["cgroup"] asText),
    ("--cidfile", .always .noEquivalent),
    ("--cpu-count", .set ["cpu_count"] asInteger),
    ("--cpu-percent", .set ["cpu_percent"] asInteger),
    ("--cpu-period", .set ["cpu_period"] asInteger),
    ("--cpu-quota", .set ["cpu_quota"] asInteger),
    ("--cpu-rt-period", .set ["cpu_rt_period"] asInteger),
    ("--cpu-rt-runtime", .set ["cpu_rt_runtime"] asInteger),
    ("--cpu-shares", .set ["cpu_shares"] asInteger),
    ("--cpus", .set ["cpus"] fun value => (decimal value).map .num),
    ("--cpuset-cpus", .set ["cpuset"] asText),
    ("--cpuset-mems", .always .notConverted),
    ("--detach", .always .notNeeded),
    ("--detach-keys", .always .notNeeded),
    ("--device", .list "devices"),
    ("--device-cgroup-rule", .list "device_cgroup_rules"),
    ("--device-read-bps", .always .notConverted),
    ("--device-read-iops", .always .notConverted),
    ("--device-write-bps", .always .notConverted),
    ("--device-write-iops", .always .notConverted),
    ("--disable-content-trust", .always .notNeeded),
    ("--dns", .list "dns"),
    ("--dns-option", .list "dns_opt"),
    ("--dns-search", .list "dns_search"),
    ("--domainname", .set ["domainname"] asText),
    -- An empty entrypoint clears the one of the image.
    ("--entrypoint", .set ["entrypoint"] fun value => some (.arr (if value = [] then [] else [text value]))),
    ("--env", .list "environment"),
    ("--env-file", .file "env_file" "flagEnvFileMustExist"),
    ("--expose", .list "expose"),
    ("--gpus", .gpus),
    ("--group-add", .list "group_add"),
    ("--health-cmd", .set ["healthcheck", "test"] asText),
    ("--health-interval", .set ["healthcheck", "interval"] asText),
    ("--health-retries", .set ["healthcheck", "retries"] asInteger),
    ("--health-start-interval", .set ["healthcheck", "start_interval"] asText),
    ("--health-start-period", .set ["healthcheck", "start_period"] asText),
    ("--health-timeout", .set ["healthcheck", "timeout"] asText),
    ("--help", .always .notNeeded),
    ("--hostname", .set ["hostname"] asText),
    ("--init", .toggle ["init"]),
    ("--interactive", .toggle ["stdin_open"]),
    ("--io-maxbandwidth", .always .notConverted),
    ("--io-maxiops", .always .notConverted),
    ("--ipc", .set ["ipc"] asText),
    ("--isolation", .set ["isolation"] asText),
    ("--kernel-memory", .always .noEquivalent),
    ("--label", .list "labels"),
    ("--label-file", .file "label_file" "flagLabelFileMustExist"),
    ("--link", .always .notConverted),
    ("--link-local-ip", .always .notConverted),
    ("--log-driver", .set ["logging", "driver"] asText),
    ("--log-opt", .keyValue ["logging", "options"]),
    ("--mac-address", .set ["mac_address"] asText),
    ("--memory", .set ["mem_limit"] asText),
    ("--memory-reservation", .set ["deploy", "resources", "reservations", "memory"] asText),
    -- Unlimited is a number, and the only one.
    ("--memory-swap", .set ["memswap_limit"] fun value => some (if value = "-1".toList then .num (-1) else text value)),
    ("--memory-swappiness", .set ["mem_swappiness"] asInteger),
    ("--mount", .mount),
    ("--name", .set ["container_name"] asText),
    ("--no-healthcheck", .toggle ["healthcheck", "disable"]),
    ("--oom-kill-disable", .toggle ["oom_kill_disable"]),
    ("--oom-score-adj", .set ["oom_score_adj"] asInteger),
    ("--pid", .set ["pid"] asText),
    ("--pids-limit", .set ["pids_limit"] asInteger),
    ("--platform", .set ["platform"] asText),
    ("--privileged", .toggle ["privileged"]),
    ("--publish", .list "ports"),
    ("--publish-all", .uncarried { outcome := .dropped, reason := "flagPublishAllDropped" }),
    ("--pull", .set ["pull_policy"] asText),
    ("--quiet", .always .notNeeded),
    ("--read-only", .toggle ["read_only"]),
    ("--restart", .set ["restart"] asText),
    ("--rm", .uncarried { outcome := .review, reason := "flagRmNotApplicable" }),
    ("--runtime", .set ["runtime"] asText),
    ("--security-opt", .list "security_opt"),
    ("--shm-size", .set ["shm_size"] asText),
    ("--sig-proxy", .always .notNeeded),
    ("--stop-signal", .set ["stop_signal"] asText),
    ("--stop-timeout", .set ["stop_grace_period"] fun value =>
      if isDigits value then some (text (value ++ ['s'])) else none),
    ("--storage-opt", .keyValue ["storage_opt"]),
    ("--sysctl", .list "sysctls"),
    ("--tmpfs", .list "tmpfs"),
    ("--tty", .toggle ["tty"]),
    ("--ulimit", .ulimit),
    ("--umask", .always .noEquivalent),
    ("--use-api-socket", .always .notConverted),
    ("--user", .set ["user"] asText),
    ("--userns", .set ["userns_mode"] asText),
    ("--uts", .set ["uts"] asText),
    ("--volume", .volume),
    ("--volume-driver", .always .notConverted),
    ("--volumes-from", .volumesFrom),
    ("--workdir", .set ["working_dir"] asText)]

def handlers : List (Text × Handler) := handlerNames.map fun (name, handler) => (name.toList, handler)

/-! ## Networks -/

structure NetworkFlag where
  index : Nat
  flag : Text
  value : Option Text
deriving DecidableEq, Repr

/-- The networks of the service, once every network flag is known -/
structure NetworkResult where
  mode : Option Text := none
  attached : List (String × Fields) := []
  external : List String := []

/-- The networks so far, with the options of one set -/
def NetworkResult.attach (result : NetworkResult) (name : String) (options : Fields) : NetworkResult :=
  { result with attached :=
      if (result.attached.lookup name).isSome then
        result.attached.map fun entry => if entry.1 = name then (name, options) else entry
      else result.attached ++ [(name, options)] }

def aliasesOf (options : Fields) : List Json := itemsOf (options.get "aliases")

structure Network where
  name : Option Text := none
  options : Fields := []
  lost : Bool := false

def readNetworkField (network : Network) (field : Text) : Network :=
  let (key, option) := splitOnce '=' field
  if key = "name".toList then { network with name := option }
  else
    match option.filter (· ≠ []) with
    | none => { network with lost := true }
    | some option =>
        if key = "alias".toList then
          { network with options := network.options.set "aliases" (.arr (aliasesOf network.options ++ [text option])) }
        else if key = "ip".toList then { network with options := network.options.set "ipv4_address" (text option) }
        else if key = "ip6".toList then { network with options := network.options.set "ipv6_address" (text option) }
        else { network with lost := true }

/-- Name, options and whether options were lost; nothing without a name. -/
def readNetwork (value : Text) : Option (Text × Fields × Bool) :=
  if '=' ∉ value then if value = [] then none else some (value, [], false)
  else
    let network := (splitFields value).foldl readNetworkField {}
    (network.name.filter (· ≠ [])).map fun name => (name, network.options, network.lost)

def joinNetwork (result : NetworkResult) (value : Option Text) : Verdict × NetworkResult :=
  match value.bind readNetwork with
  | none => (.notAccepted, result)
  | some (name, own, lost) =>
      let name := String.ofList name
      let options := (result.attached.lookup name).getD []
      let aliases := aliasesOf options ++ aliasesOf own
      let joined := Fields.setAll options own
      let joined := if aliases = [] then joined else joined.set "aliases" (.arr aliases)
      let result := result.attach name joined
      let result := { result with external :=
        if name ∈ result.external then result.external else result.external ++ [name] }
      (if lost then .optionsLost else .networkExternal, result)

def applyNetworkOption (result : NetworkResult) (entry : NetworkFlag) : Verdict × NetworkResult :=
  match entry.value with
  | none => (.notAccepted, result)
  | some value =>
      if entry.flag = "--network-alias".toList then
        let target := result.external.head?.getD "default"
        let options := (result.attached.lookup target).getD []
        (.carried, result.attach target (options.set "aliases" (.arr (aliasesOf options ++ [text value]))))
      else
        match result.external.head? with
        | none => (.ipNeedsNetwork, result)
        | some first =>
            let options := (result.attached.lookup first).getD []
            let key := if entry.flag = "--ip".toList then "ipv4_address" else "ipv6_address"
            (.carried, result.attach first (options.set key (text value)))

/-- `^(host|bridge|none)$|^container:` -/
def isNetworkMode (value : Text) : Bool :=
  value ∈ ["host".toList, "bridge".toList, "none".toList] || "container:".toList.isPrefixOf value

def network : Text := "--network".toList

def networkFlagNames : List Text :=
  [network, "--network-alias".toList, "--ip".toList, "--ip6".toList]

abbrev Verdicts := List (Nat × Verdict)

/-- The loops of `connectNetworks`, each with what it does with one flag -/
def connectEach (connect : NetworkResult → NetworkFlag → Verdict × NetworkResult) (flags : List NetworkFlag)
    (verdicts : Verdicts) (result : NetworkResult) : Verdicts × NetworkResult :=
  flags.foldl (fun (verdicts, result) entry =>
    let (verdict, result) := connect result entry
    ((entry.index, verdict) :: verdicts, result)) (verdicts, result)

def connectNetworks (flags : List NetworkFlag) (verdicts : Verdicts) : Verdicts × NetworkResult :=
  match flags.find? fun entry => entry.flag = network && entry.value.any isNetworkMode with
  | some mode =>
      (flags.foldl (fun verdicts entry =>
        (entry.index, if entry = mode then Verdict.carried else .notAccepted) :: verdicts) verdicts,
        { mode := mode.value })
  | none =>
      let (verdicts, result) := connectEach (fun result entry => joinNetwork result entry.value)
        (flags.filter (·.flag = network)) verdicts {}
      connectEach applyNetworkOption (flags.filter (·.flag ≠ network)) verdicts result

def networkEntry (result : NetworkResult) : Option (String × Json) :=
  match result.mode with
  | some mode => some ("network_mode", text mode)
  | none =>
      if result.attached = [] then none
      else if result.attached.all (·.2 = []) then some ("networks", .arr (result.attached.map fun entry => .str entry.1))
      else some ("networks", .obj (result.attached.map fun entry => (entry.1, .obj entry.2)))

/-! ## The whole command -/

structure Converting where
  draft : Draft
  verdicts : Verdicts := []
  networkFlags : List NetworkFlag := []

/-- The value of a flag; a switch without one is on. -/
def valueOf (parsed : ParsedFlag) : Option Text :=
  parsed.value.or (if takesValue (canonicalFlag parsed.flag) then none else some "true".toList)

def convertFlag (state : Converting) (index : Nat) (parsed : ParsedFlag) : Converting :=
  let flag := canonicalFlag parsed.flag
  if flag ∈ networkFlagNames then
    -- The place of the networks is where the first of their flags was written.
    { state with
      draft := if (state.draft.service.get "networks").isSome then state.draft
        else { state.draft with service := state.draft.service.set "networks" .null }
      networkFlags := state.networkFlags ++ [{ index, flag, value := parsed.value }] }
  else
    match handlers.lookup flag, valueOf parsed with
    | none, _ => { state with verdicts := (index, .unknown) :: state.verdicts }
    | some _, none => { state with verdicts := (index, .notAccepted) :: state.verdicts }
    | some handler, some value =>
        let (verdict, draft) := handler.run value state.draft
        { state with verdicts := (index, verdict) :: state.verdicts, draft }

def convertFlags (state : Converting) (index : Nat) : List ParsedFlag → Converting
  | [] => state
  | parsed :: rest => convertFlags (convertFlag state index parsed) (index + 1) rest

def stripPairs : Text → Text
  | '$' :: '$' :: rest => stripPairs rest
  | character :: rest => character :: stripPairs rest
  | [] => []

/-- Whether compose will read a variable in a value -/
def interpolates (value : Text) : Bool := '$' ∈ stripPairs value

structure FlagReportItem where
  flag : Text
  value : Option Text
  verdict : Verdict
deriving DecidableEq, Repr

structure ConversionReport where
  carried : List FlagReportItem := []
  review : List FlagReportItem := []
  dropped : List FlagReportItem := []
deriving DecidableEq, Repr

def ConversionReport.push (report : ConversionReport) (item : FlagReportItem) : ConversionReport :=
  match item.verdict.outcome with
  | .carried => { report with carried := report.carried ++ [item] }
  | .review => { report with review := report.review ++ [item] }
  | .dropped => { report with dropped := report.dropped ++ [item] }

/-- The line of a flag; a carried value that compose would interpolate has to be looked at. -/
def reportItem (verdicts : Verdicts) (index : Nat) (parsed : ParsedFlag) : FlagReportItem :=
  let verdict := (verdicts.lookup index).getD .unknown
  { flag := parsed.flag
    value := parsed.value
    verdict := if verdict = .carried ∧ parsed.value.any interpolates then .dollar else verdict }

def reportFlags (verdicts : Verdicts) (report : ConversionReport) (index : Nat) : List ParsedFlag → ConversionReport
  | [] => report
  | parsed :: rest => reportFlags verdicts (report.push (reportItem verdicts index parsed)) (index + 1) rest

def isNameChar (char : Char) : Bool := char.isLower || char.isDigit || char ∈ ['.', '_', '-']

/-- Each run of other characters becomes one dash. -/
def dashed (inRun : Bool) : Text → Text
  | [] => []
  | char :: rest =>
      if isNameChar char then char :: dashed false rest else if inRun then dashed true rest else '-' :: dashed true rest

/-- Name of the service, taken from the image -/
def serviceNameFromImage (image : Text) : Text :=
  let reference := image.takeWhile (· ≠ '@')
  let repository := (((splitChars '/' reference).getLast?).getD []).takeWhile (· ≠ ':')
  let isMark (char : Char) : Bool := char ∈ ['-', '.', '_']
  let name := (((dashed false (lowerChars repository)).dropWhile isMark).reverse.dropWhile isMark).reverse
  if name = [] then "app".toList else name

structure DockerRunConversion where
  serviceName : Text
  service : Fields
  networks : List String
  volumes : List String
  report : ConversionReport

/-- The service keys with the networks at their place, and the command behind them -/
def serviceOf (draft : Draft) (networks : NetworkResult) (args : List Text) : Fields :=
  let service := draft.service.flatMap fun field =>
    if field.1 = "networks" then (networkEntry networks).toList else [field]
  if args = [] then service else service ++ [("command", .arr (args.map text))]

def convert (flags : List ParsedFlag) (image : Text) (args : List Text) : DockerRunConversion :=
  let state := convertFlags { draft := { service := [("image", text image)], volumes := [] } } 0 flags
  let (verdicts, networks) := connectNetworks state.networkFlags state.verdicts
  let report := reportFlags verdicts {} 0 flags
  let report := if interpolates image then report.push ⟨"image".toList, some image, .dollar⟩ else report
  let report :=
    if args.any interpolates then report.push ⟨"command".toList, some (List.intercalate [' '] args), .dollar⟩ else report
  { serviceName := serviceNameFromImage image
    service := serviceOf state.draft networks args
    networks := networks.external
    volumes := state.draft.volumes
    report }

def convertDockerRunCommand (command : Text) : Option DockerRunConversion :=
  let parsed := parseDockerRun command
  parsed.image.map fun image => convert parsed.flags image parsed.args

end Dockge.DockerRun
