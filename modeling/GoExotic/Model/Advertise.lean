/-
Module: GoExotic.Model.Advertise
Purpose: The command's local capability: the address it advertises for a listen address, and the server
  that `serve` makes of it.
Trusted boundary: net.SplitHostPort and net.JoinHostPort, as documented
Main exports: splitHostPort, joinHostPort, advertiseHTTPAddress, localCapabilities, runServeServer
-/
import GoExotic.Model.PlanningServer

namespace GoExotic

/-- `strings.HasPrefix`. -/
def hasPrefix (s start : String) : Bool := start.toList.isPrefixOf s.toList

/-- `net.SplitHostPort`; an error is `none`. The port follows the last colon; a host with colons stands in
brackets, which end right before it. -/
def splitHostPort (hostport : String) : Option (String × String) :=
  let text := hostport.toList
  let upToColon := text.rdropWhile fun c => c != ':'
  let port := text.rtakeWhile fun c => c != ':'
  if upToColon = [] then none
  else
    match text with
    | '[' :: rest =>
        let host := rest.takeWhile fun c => c != ']'
        let later := rest.dropWhile fun c => c != ']'
        if upToColon ≠ '[' :: (host ++ [']', ':']) then none
        else if '[' ∈ rest ∨ ']' ∈ later.tail then none
        else some (String.ofList host, String.ofList port)
    | _ =>
        let host := upToColon.dropLast
        if ':' ∈ host then none
        else if '[' ∈ text ∨ ']' ∈ text then none
        else some (String.ofList host, String.ofList port)

/-- `net.JoinHostPort`. -/
def joinHostPort (host port : String) : String :=
  if ':' ∈ host.toList then "[" ++ host ++ "]:" ++ port else host ++ ":" ++ port

/-- The address `advertiseHTTPAddress` makes of one without a scheme, before it is trimmed. -/
def advertiseHostPort (addr : String) : String :=
  if hasPrefix addr ":" then "127.0.0.1" ++ addr
  else
    match splitHostPort addr with
    | none => addr
    | some (host, port) =>
        if host = "" ∨ host = "0.0.0.0" ∨ host = "::" ∨ host = "[::]" then joinHostPort "127.0.0.1" port
        else addr

/-- `advertiseHTTPAddress`. -/
def advertiseHTTPAddress (addr : String) : String :=
  let addr := trimSpace addr
  if hasPrefix addr "http://" ∨ hasPrefix addr "https://" then trimRightSlash addr
  else "http://" ++ trimRightSlash (advertiseHostPort addr)

/-- `localCapabilities`. -/
def localCapabilities (address : List String) : List Capability :=
  let metadata : GoMap String := AList.insert "mode" "local-only" ∅
  let metadata := match address with
    | [] => metadata
    | first :: _ =>
        if trimSpace first ≠ "" then
          (metadata.insert "address" (advertiseHTTPAddress first)).insert "transport" "http"
        else metadata
  [⟨"local", ⟨"local", .finite 1, "go-pherence"⟩, metadata⟩]

/-- The server of `runServe`; its options are those of shard execution. -/
def runServeServer {W : Type} (addr : String) (serverOpts : List (ServerOption W)) : PlanningServer W :=
  newPlanningServer (localCapabilities [advertiseHTTPAddress addr])
    (serverOpts.map fun opt => some (PlanningOption.ofServerOption opt))

example : ["127.0.0.1:8089", ":8089", "0.0.0.0:8089", "[::]:8089", "http://example:8089/",
    " https://example:8443/ ", "[fe80::1%eth0]:80"].map advertiseHTTPAddress =
    ["http://127.0.0.1:8089", "http://127.0.0.1:8089", "http://127.0.0.1:8089", "http://127.0.0.1:8089",
      "http://example:8089", "https://example:8443", "http://[fe80::1%eth0]:80"] := by decide +kernel

end GoExotic
