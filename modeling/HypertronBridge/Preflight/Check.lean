import HypertronBridge.Lib.Words
import Mathlib.Algebra.Ring.Int.Defs

namespace HypertronBridge.Preflight

open Words

/-!
# The network preflight (`LinuxNetworkPreflight::check`, `network_preflight.cpp`)

Before the driver starts, two runs of `ip` tell whether the host has the expected address and reaches
the robot from it over the expected interface.

* `parseAddress`, `evaluateNetwork` — the evaluation of the facts;
* `parseIpAddrOutput`, `parseIpRouteGetOutput` — the parsers of what `ip` prints;
* `check` — both runs and the verdict;
* `inetWords`, `firstRoute` — what the two outputs say; `check_decides` — the verdict is this.
-/

/-! ### Addresses -/

/-- `ParsedAddress`. -/
structure ParsedAddress where
  address : String
  hasPrefix : Bool := false
  prefixLen : Int := 0
deriving DecidableEq

/-- The number that decimal digits write. -/
def digitsValue (digits : List Char) : Nat :=
  digits.foldl (fun n d => 10 * n + (d.toNat - '0'.toNat)) 0

/-- `std::stoi`: the number and how many characters it takes, unless there is none or it is not an
    `int`. -/
def stoi (text : List Char) : Option (Int × Nat) :=
  let body := text.dropWhile isSpace
  let (negative, digits) :=
    match body with
    | '-' :: rest => (true, rest)
    | '+' :: rest => (false, rest)
    | rest => (false, rest)
  let number := digits.takeWhile Char.isDigit
  let value : Int := if negative then -(digitsValue number : Int) else digitsValue number
  if number = [] then none
  else if value < -2 ^ 31 ∨ 2 ^ 31 ≤ value then none
  else some (value, text.length - digits.length + number.length)

section address

-- `inet_pton(AF_INET, ..) == 1`
variable (inetPton : String → Bool)

/-- `parse_address`, from what is before the slash on. -/
def plainAddress (rest : List Char) (hasPrefix : Bool) (prefixLen : Int) : Option ParsedAddress :=
  if rest = [] then none
  else if !inetPton (String.ofList rest) then none
  else some { address := String.ofList rest, hasPrefix, prefixLen }

/-- `parse_address`. -/
def parseAddress (cidr : String) : Option ParsedAddress :=
  let rest := cidr.toList.takeWhile (fun c => c != '/')
  match cidr.toList.dropWhile (fun c => c != '/') with
  | [] => plainAddress inetPton rest false 0
  | _ :: prefixText =>
      if prefixText = [] then none
      else
        match stoi prefixText with
        | none => none
        | some (value, consumed) =>
            if consumed ≠ prefixText.length ∨ value < 0 ∨ 32 < value then none
            else plainAddress inetPton rest true value

/-! ### The evaluation -/

/-- `NetworkFacts`. -/
structure NetworkFacts where
  addresses : List String := []
  routeInterface : String := ""
  routeSource : String := ""
  addressesError : String := ""
  routeError : String := ""

/-- `NetworkExpectation`. -/
structure NetworkExpectation where
  interface : String
  hostAddress : String
  robotAddress : String

/-- `NetworkDecision`. -/
structure NetworkDecision where
  ready : Bool := false
  message : String := ""
deriving DecidableEq

/-- `join_failures`. -/
def joinFailures (first second : String) : String :=
  if first.isEmpty then second else if second.isEmpty then first else first ++ "; " ++ second

/-- The entry is the expected address, with the same prefix. -/
def sameAddress (parsed expectedHost : ParsedAddress) : Bool :=
  if parsed.address ≠ expectedHost.address then false
  else if parsed.hasPrefix ≠ expectedHost.hasPrefix then false
  else if expectedHost.hasPrefix ∧ parsed.prefixLen ≠ expectedHost.prefixLen then false
  else true

/-- `address_problem`. -/
def addressProblem (facts : NetworkFacts) (expected : NetworkExpectation)
    (expectedHost : ParsedAddress) : String :=
  if !facts.addressesError.isEmpty then "could not read host addresses: " ++ facts.addressesError
  else
    let found := facts.addresses.any (fun entry =>
      (parseAddress inetPton entry).any (fun parsed => sameAddress parsed expectedHost))
    if !found then "host address '" ++ expected.hostAddress ++ "' not found on any interface" else ""

/-- `route_problem`. -/
def routeProblem (facts : NetworkFacts) (expected : NetworkExpectation)
    (expectedHost : ParsedAddress) : String :=
  if !facts.routeError.isEmpty then
    "could not determine route to '" ++ expected.robotAddress ++ "': " ++ facts.routeError
  else if facts.routeInterface.isEmpty then
    "no route to robot address '" ++ expected.robotAddress ++ "'"
  else if facts.routeInterface ≠ expected.interface then
    "route to '" ++ expected.robotAddress ++ "' uses interface '" ++ facts.routeInterface ++
      "', expected '" ++ expected.interface ++ "'"
  else if facts.routeSource ≠ expectedHost.address then
    "route to '" ++ expected.robotAddress ++ "' uses source address '" ++ facts.routeSource ++
      "', expected '" ++ expectedHost.address ++ "'"
  else ""

/-- `evaluate_network`. -/
def evaluateNetwork (facts : NetworkFacts) (expected : NetworkExpectation) : NetworkDecision :=
  match parseAddress inetPton expected.hostAddress with
  | none =>
      { message := "expected host address '" ++ expected.hostAddress ++
          "' is not a valid IPv4 address or CIDR" }
  | some expectedHost =>
      let problem := joinFailures (addressProblem inetPton facts expected expectedHost)
        (routeProblem facts expected expectedHost)
      if problem.isEmpty then
        { ready := true
          message := "network preflight ok: " ++ expected.hostAddress ++ " on " ++ expected.interface ++
            ", route to " ++ expected.robotAddress ++ " via " ++ expected.interface }
      else { message := problem }

end address

/-! ### What `ip` prints -/

/-- The words of one line, for `parse_ip_addr_output`: the addresses so far, and whether one was
    found. -/
def scanAddresses : List String → List String × Bool → List String × Bool
  | [], found => found
  | token :: tokens, (addresses, found) =>
      if token = "inet" then
        match tokens with
        | [] => (addresses, found)
        | cidr :: tokens => scanAddresses tokens (addresses ++ [cidr], true)
      else scanAddresses tokens (addresses, found)

/-- `parse_ip_addr_output`: the addresses, and whether one was found. -/
def parseIpAddrOutput (output : String) (addresses : List String) : List String × Bool :=
  (lines output.toList).foldl (fun found line => scanAddresses (words line) found) (addresses, false)

/-- The words of one line, for `parse_ip_route_get_output`.  A word that is missing leaves the string
    as it was. -/
def scanRoute : List String → String × String → String × String
  | [], route => route
  | token :: tokens, (dev, src) =>
      if token = "dev" then
        match tokens with
        | [] => (dev, src)
        | value :: tokens => scanRoute tokens (value, src)
      else if token = "src" then
        match tokens with
        | [] => (dev, src)
        | value :: tokens => scanRoute tokens (dev, value)
      else scanRoute tokens (dev, src)

/-- `parse_ip_route_get_output`: the first line that gives both. -/
def parseIpRouteGetOutput (output : String) : Option (String × String) :=
  (lines output.toList).findSome? (fun line =>
    let (dev, src) := scanRoute (words line) ("", "")
    if !dev.isEmpty && !src.isEmpty then some (dev, src) else none)

/-! ### The check -/

/-- What a command leaves: its exit status and what it printed. -/
structure CommandResult where
  rc : Int
  output : String
  error : String

/-- What is added to a status: the error output, if there is any. -/
def errorSuffix (error : String) : String := if error.isEmpty then "" else ": " ++ error

/-- The command that prints the addresses. -/
def addrCommand : List String := ["ip", "-4", "-o", "addr", "show"]

/-- The command that prints the route. -/
def routeCommand (expected : NetworkExpectation) : List String :=
  ["ip", "-4", "-o", "route", "get", expected.robotAddress]

/-- The facts that the first result gives. -/
def addressFacts (result : CommandResult) (facts : NetworkFacts) : NetworkFacts :=
  if result.rc ≠ 0 then
    { facts with
      addressesError := "'ip -4 -o addr show' exited with status " ++ toString result.rc ++
        errorSuffix result.error }
  else
    let (addresses, found) := parseIpAddrOutput result.output facts.addresses
    if !found then
      { facts with
        addresses
        addressesError := "'ip -4 -o addr show' returned no IPv4 addresses" }
    else { facts with addresses }

/-- The facts that the second result gives. -/
def routeFacts (expected : NetworkExpectation) (result : CommandResult) (facts : NetworkFacts) :
    NetworkFacts :=
  if result.rc ≠ 0 then
    { facts with
      routeError := "'ip route get " ++ expected.robotAddress ++ "' exited with status " ++
        toString result.rc ++ errorSuffix result.error }
  else
    match parseIpRouteGetOutput result.output with
    | some (device, source) => { facts with routeInterface := device, routeSource := source }
    | none =>
        { facts with
          routeError := "'ip route get " ++ expected.robotAddress ++ "' produced unparseable output" }

/-- `LinuxNetworkPreflight::check`, with a runner that may depend on what it ran before. -/
def check {σ : Type} (inetPton : String → Bool) (runner : List String → σ → CommandResult × σ)
    (expected : NetworkExpectation) (s : σ) : NetworkDecision × σ :=
  let (first, s) := runner addrCommand s
  let facts := addressFacts first {}
  let (second, s) := runner (routeCommand expected) s
  let facts := routeFacts expected second facts
  (evaluateNetwork inetPton facts expected, s)

/-! ### What the outputs say -/

def isInet (w : String) : Bool := w == "inet"

def isRouteKey (w : String) : Bool := w == "dev" || w == "src"

/-- The words of a line that `inet` takes. -/
def inetValues (ws : List String) : List String := (keyed isInet ws).map (fun p => p.2)

/-- The words that `inet` takes, line by line. -/
def inetWords (output : String) : List String :=
  (lines output.toList).flatMap (fun line => inetValues (words line))

/-- The device and the source of a line, where `dev` and `src` take the next word and the last one of
    each counts. -/
def lineRoute (line : List Char) : Option (String × String) :=
  match lastValue "dev" (keyed isRouteKey (words line)), lastValue "src" (keyed isRouteKey (words line)) with
  | some device, some source => some (device, source)
  | _, _ => none

/-- Those of the first line that has both. -/
def firstRoute (output : String) : Option (String × String) := (lines output.toList).findSome? lineRoute

theorem scanAddresses_eq (ws addresses : List String) (found : Bool) :
    scanAddresses ws (addresses, found) =
      (addresses ++ inetValues ws, found || !(inetValues ws).isEmpty) := by
  induction ws using keyed.induct isInet generalizing addresses found with
  | case1 => simp [scanAddresses, inetValues, keyed]
  | case2 w =>
    unfold scanAddresses
    split_ifs <;> simp [scanAddresses, inetValues, keyed]
  | case3 w v ws hkey ih =>
    have hvalues : inetValues (w :: v :: ws) = v :: inetValues ws := by
      rw [inetValues, keyed_of_key hkey]
      rfl
    rw [hvalues, scanAddresses, if_pos (by simpa [isInet] using hkey), ih]
    simp
  | case4 w v ws hkey ih =>
    have hkey : isInet w = false := by simpa using hkey
    have hvalues : inetValues (w :: v :: ws) = inetValues (v :: ws) := by
      rw [inetValues, keyed_of_not_key hkey]
      rfl
    rw [hvalues, scanAddresses, if_neg (by simpa [isInet] using hkey)]
    exact ih addresses found

/-- **The addresses.** -/
theorem parseIpAddrOutput_eq (output : String) (addresses : List String) :
    parseIpAddrOutput output addresses =
      (addresses ++ inetWords output, !(inetWords output).isEmpty) := by
  have hfold : ∀ (ls : List (List Char)) (addresses : List String) (found : Bool),
      ls.foldl (fun found line => scanAddresses (words line) found) (addresses, found) =
        (addresses ++ ls.flatMap (fun line => inetValues (words line)),
          found || !(ls.flatMap (fun line => inetValues (words line))).isEmpty) := by
    intro ls
    induction ls with
    | nil => simp
    | cons line ls ih =>
      intro addresses found
      rw [List.foldl_cons, scanAddresses_eq, ih, List.flatMap_cons, List.append_assoc, Bool.or_assoc]
      cases inetValues (words line) <;> simp
  unfold parseIpAddrOutput
  rw [hfold, Bool.false_or]
  rfl

theorem scanRoute_eq (ws : List String) (dev src : String) :
    scanRoute ws (dev, src) = ((lastValue "dev" (keyed isRouteKey ws)).getD dev,
      (lastValue "src" (keyed isRouteKey ws)).getD src) := by
  induction ws using keyed.induct isRouteKey generalizing dev src with
  | case1 => rfl
  | case2 w =>
    unfold scanRoute
    split_ifs <;> rfl
  | case3 w v ws hkey ih =>
    rw [keyed_of_key hkey, lastValue_cons, lastValue_cons, scanRoute]
    rcases Bool.or_eq_true_iff.mp hkey with hdev | hsrc
    · obtain rfl : w = "dev" := by simpa using hdev
      rw [if_pos rfl]
      dsimp only
      rw [ih]
      cases lastValue "dev" (keyed isRouteKey ws) <;> simp
    · obtain rfl : w = "src" := by simpa using hsrc
      rw [if_neg (by decide), if_pos rfl]
      dsimp only
      rw [ih]
      cases lastValue "src" (keyed isRouteKey ws) <;> simp
  | case4 w v ws hkey ih =>
    have hkey : isRouteKey w = false := by simpa using hkey
    obtain ⟨hdev, hsrc⟩ := Bool.or_eq_false_iff.mp hkey
    rw [keyed_of_not_key hkey, scanRoute, if_neg (by simpa using hdev), if_neg (by simpa using hsrc)]
    exact ih dev src

/-- **The route.** -/
theorem parseIpRouteGetOutput_eq (output : String) : parseIpRouteGetOutput output = firstRoute output := by
  unfold parseIpRouteGetOutput firstRoute
  refine congrArg (fun f => List.findSome? f (lines output.toList)) (funext fun line => ?_)
  dsimp only
  rw [scanRoute_eq]
  unfold lineRoute
  -- a word is not empty, so the strings tell whether there was one
  have hword : ∀ {key v : String}, lastValue key (keyed isRouteKey (words line)) = some v →
      v.isEmpty = false := fun h => words_ne_empty (mem_of_keyed (lastValue_mem h))
  cases hdev : lastValue "dev" (keyed isRouteKey (words line)) with
  | none => simp
  | some device =>
    cases hsrc : lastValue "src" (keyed isRouteKey (words line)) with
    | none => simp
    | some source => simp [hword hdev, hword hsrc]

/-- A route names a device. -/
theorem firstRoute_device {output device source : String} (h : firstRoute output = some (device, source)) :
    device.isEmpty = false := by
  obtain ⟨line, -, hline⟩ := List.exists_of_findSome?_eq_some h
  unfold lineRoute at hline
  split at hline
  · rename_i hdev _
    obtain ⟨rfl, -⟩ := Prod.mk.inj (Option.some.inj hline)
    exact words_ne_empty (mem_of_keyed (lastValue_mem hdev))
  · exact absurd hline (by simp)

/-! ### The verdict -/

section verdict

variable {inetPton : String → Bool} {expected : NetworkExpectation} {first second : CommandResult}
  {facts : NetworkFacts} {host : ParsedAddress}

/-- The two results confirm the expectation: the expected address, with its prefix, is one that the host
    has, and the route leaves from it over the expected interface. -/
def Confirms (inetPton : String → Bool) (expected : NetworkExpectation) (first second : CommandResult) :
    Prop :=
  first.rc = 0 ∧ second.rc = 0 ∧ ∃ host, parseAddress inetPton expected.hostAddress = some host ∧
    (∃ entry ∈ inetWords first.output, parseAddress inetPton entry = some host) ∧
    firstRoute second.output = some (expected.interface, host.address)

/-- An address without a prefix has none. -/
theorem parseAddress_prefixLen {cidr : String} {parsed : ParsedAddress}
    (h : parseAddress inetPton cidr = some parsed) (hno : parsed.hasPrefix = false) :
    parsed.prefixLen = 0 := by
  have hplain : ∀ {rest : List Char} {hasPrefix : Bool} {prefixLen : Int},
      plainAddress inetPton rest hasPrefix prefixLen = some parsed →
        parsed.hasPrefix = hasPrefix ∧ parsed.prefixLen = prefixLen := by
    intro rest hasPrefix prefixLen h
    unfold plainAddress at h
    split_ifs at h
    rw [← Option.some.inj h]
    exact ⟨rfl, rfl⟩
  unfold parseAddress at h
  dsimp only at h
  split at h
  · exact (hplain h).2
  · split_ifs at h
    split at h
    · exact absurd h (by simp)
    · split_ifs at h
      rw [(hplain h).1] at hno
      exact absurd hno (by simp)

/-- The same address is the same address with the same prefix. -/
theorem sameAddress_iff {parsed : ParsedAddress} {cidr cidr' : String}
    (h : parseAddress inetPton cidr = some parsed) (h' : parseAddress inetPton cidr' = some host) :
    sameAddress parsed host = true ↔ parsed = host := by
  unfold sameAddress
  constructor
  · intro hsame
    split_ifs at hsame with haddress hflag hlen
    rw [not_not] at haddress hflag
    cases hhost : host.hasPrefix with
    | true =>
      have hlen : parsed.prefixLen = host.prefixLen := by simpa [hhost] using hlen
      cases parsed
      cases host
      simp_all
    | false =>
      have hzero := parseAddress_prefixLen h (hflag.trans hhost)
      have hzero' := parseAddress_prefixLen h' hhost
      cases parsed
      cases host
      simp_all
  · rintro rfl
    simp

/-- There is no problem with the addresses. -/
theorem addressProblem_isEmpty (hhost : parseAddress inetPton expected.hostAddress = some host) :
    (addressProblem inetPton (addressFacts first {}) expected host).isEmpty = true ↔
      first.rc = 0 ∧ ∃ entry ∈ inetWords first.output, parseAddress inetPton entry = some host := by
  unfold addressFacts
  split_ifs with hrc
  · simp [addressProblem, hrc]
  · rw [not_not] at hrc
    rw [parseIpAddrOutput_eq]
    dsimp only
    cases hwords : inetWords first.output with
    | nil => simp [addressProblem]
    | cons entry entries =>
      -- each entry is compared with the expected address
      have hentry : ∀ entry, ((parseAddress inetPton entry).any (fun p => sameAddress p host) = true ↔
          parseAddress inetPton entry = some host) := by
        intro entry
        cases hparse : parseAddress inetPton entry with
        | none => simp
        | some parsed =>
          rw [Option.any_some, sameAddress_iff hparse hhost, Option.some.injEq]
      have hfound : ((entry :: entries).any
          (fun entry => (parseAddress inetPton entry).any (fun p => sameAddress p host)) = true ↔
            ∃ e ∈ entry :: entries, parseAddress inetPton e = some host) := by
        rw [List.any_eq_true]
        exact exists_congr (fun e => and_congr_right (fun _ => hentry e))
      have hnoError : "".isEmpty = true := rfl
      rw [← hfound]
      simp only [List.isEmpty_cons, Bool.not_false, Bool.not_true, Bool.false_eq_true, if_false,
        List.nil_append, addressProblem, hnoError]
      cases (entry :: entries).any
        (fun entry => (parseAddress inetPton entry).any (fun p => sameAddress p host)) <;> simp [hrc]

/-- There is no problem with the route. -/
theorem routeProblem_isEmpty (hfacts : facts.routeError = "" ∧ facts.routeInterface = "") :
    (routeProblem (routeFacts expected second facts) expected host).isEmpty = true ↔
      second.rc = 0 ∧ firstRoute second.output = some (expected.interface, host.address) := by
  obtain ⟨hnoError, hnoInterface⟩ := hfacts
  have hempty : "".isEmpty = true := rfl
  unfold routeFacts
  split_ifs with hrc
  · simp [routeProblem, hrc]
  · rw [not_not] at hrc
    rw [parseIpRouteGetOutput_eq]
    cases hroute : firstRoute second.output with
    | none => simp [routeProblem]
    | some route =>
      obtain ⟨device, source⟩ := route
      have hdevice := firstRoute_device hroute
      simp only [routeProblem, hnoError, hempty, Bool.not_true, Bool.false_eq_true,
        if_false, hdevice, Option.some.injEq, Prod.mk.injEq, hrc, true_and]
      split_ifs with hinterface hsource
      · simp [hinterface]
      · simp [hsource]
      · simp [not_not.mp hinterface, not_not.mp hsource]

/-- The second command leaves what the first one gave. -/
theorem addressProblem_routeFacts :
    addressProblem inetPton (routeFacts expected second facts) expected host =
      addressProblem inetPton facts expected host := by
  unfold routeFacts
  split_ifs
  · rfl
  · split <;> rfl

theorem joinFailures_isEmpty (a b : String) :
    (joinFailures a b).isEmpty = true ↔ a.isEmpty = true ∧ b.isEmpty = true := by
  unfold joinFailures
  split_ifs with ha hb
  · simp [ha]
  · simp [ha, hb]
  · simp [ha]

/-- **The verdict.** For every expectation and every two results, the check is ready if and only if they
    confirm the expectation, and if it is not ready its message says something. -/
theorem check_decides {σ : Type} (inetPton : String → Bool)
    (runner : List String → σ → CommandResult × σ) (expected : NetworkExpectation) (s : σ) :
    let first := runner addrCommand s
    let second := runner (routeCommand expected) first.2
    ((check inetPton runner expected s).1.ready = true ↔
        Confirms inetPton expected first.1 second.1) ∧
      ((check inetPton runner expected s).1.ready = false →
        (check inetPton runner expected s).1.message ≠ "") := by
  intro first second
  show ((evaluateNetwork inetPton (routeFacts expected second.1 (addressFacts first.1 {})) expected).ready =
      true ↔ _) ∧
    ((evaluateNetwork inetPton (routeFacts expected second.1 (addressFacts first.1 {})) expected).ready =
      false →
      (evaluateNetwork inetPton (routeFacts expected second.1 (addressFacts first.1 {})) expected).message ≠
        "")
  have hblank : (addressFacts first.1 {}).routeError = "" ∧
      (addressFacts first.1 {}).routeInterface = "" := by
    unfold addressFacts
    split_ifs
    · exact ⟨rfl, rfl⟩
    · dsimp only
      split_ifs <;> exact ⟨rfl, rfl⟩
  unfold evaluateNetwork Confirms
  cases hhost : parseAddress inetPton expected.hostAddress with
  | none => simp
  | some host =>
    have haddress : (addressProblem inetPton (addressFacts first.1 {}) expected host).isEmpty = true ↔
        _ := addressProblem_isEmpty hhost
    have hroute : (routeProblem (routeFacts expected second.1 (addressFacts first.1 {})) expected
        host).isEmpty = true ↔ _ := routeProblem_isEmpty hblank
    dsimp only
    rw [addressProblem_routeFacts]
    split_ifs with hproblem
    · obtain ⟨ha, hr⟩ := (joinFailures_isEmpty _ _).mp hproblem
      obtain ⟨hrc, hentry⟩ := haddress.mp ha
      obtain ⟨hrc', hfirst⟩ := hroute.mp hr
      refine ⟨iff_of_true rfl ⟨hrc, hrc', host, rfl, hentry, hfirst⟩, fun h => absurd h (by simp)⟩
    · refine ⟨iff_of_false (by simp) ?_, fun _ hempty => hproblem ?_⟩
      · rintro ⟨hrc, hrc', host', hhost', hentry, hfirst⟩
        obtain rfl := Option.some.inj hhost'
        exact hproblem ((joinFailures_isEmpty _ _).mpr
          ⟨haddress.mpr ⟨hrc, hentry⟩, hroute.mpr ⟨hrc', hfirst⟩⟩)
      · exact String.isEmpty_iff.mpr hempty

end verdict

end HypertronBridge.Preflight
