/-
  Core/Args.lean --- lib/args.h and src/args.c.

  The parameters on the command line.  An argument vector is the list of its strings,
  with the name of the program first.
-/
import IpkChat.Core.Common
import IpkChat.Foundation.Decimal
import IpkChat.Foundation.Getopt

set_option autoImplicit false

namespace IpkChat.Core

open IpkChat.Foundation

/-- The structure parameters_t. -/
structure Parameters where
  tcp : Bool
  ipOrDomain : Option Bytes
  port : Bytes
  timeout : UInt16
  retransmissions : UInt8
  deriving DecidableEq, Repr

/-- The zero-initialised global parameters, after parameters_setup. -/
def parametersSetup : Parameters := ⟨false, none, ascii "4567", 250, 3⟩

/-- The option without an argument. -/
inductive Flag where
  | h
  deriving DecidableEq, Repr

/-- The options with an argument. -/
inductive Valued where
  | t
  | s
  | p
  | d
  | r
  deriving DecidableEq, Repr

/-- The option string ":t:s:p:d:r:h". -/
def optstring (c : UInt8) : Option (Flag ⊕ Valued) :=
  [((0x74 : UInt8), Sum.inr Valued.t), (0x73, .inr .s), (0x70, .inr .p), (0x64, .inr .d),
    (0x72, .inr .r), (0x68, .inl .h)].lookup c

/-- The help text of print_help. -/
def helpText : String :=
  "Usage: ./ipk25chat-client -t <tcp|udp> -s <server> -p <port> [-d <timeout>] " ++
  "[-r <retries>] [-h]\n\n" ++
  "Options:\n" ++
  "  -t <tcp|udp>        Transport protocol used for connection (required)\n" ++
  "  -s <server>         Server IP address or hostname (required)\n" ++
  "  -p <port>           Server port number (uint16, required)\n" ++
  "  -d <timeout>        UDP confirmation timeout in milliseconds (uint16, default: 250)\n" ++
  "  -r <retries>        Maximum number of UDP retransmissions (uint8, default: 3)\n" ++
  "  -h                  Show this help message and exit\n"

/-- How process_args ends. -/
inductive ArgsResult where
  | returned (code : ExitCode)
  /-- exit with status 0, behind the help text -/
  | exited (printed : Bytes)
  deriving DecidableEq

/-- The parameters, the local variables of process_args, and whether errno is set. -/
structure ArgsState where
  parameters : Parameters
  protocolSet : Bool
  timeoutSet : Bool
  retransmissionsSet : Bool
  helpSet : Bool
  onlyOpt : Bool
  portSet : Bool
  errno : Bool
  deriving DecidableEq

/-- The variables of process_args before its loop. -/
def argsStart : ArgsState := ⟨parametersSetup, false, false, false, false, true, false, false⟩

/-- The test of CHECK_OPTARG_AND_REDEF.  optarg is never null: getopt reports an option
that lacks its argument as ':'. -/
def checkOptarg (optarg : Bytes) (redefined : Bool) : Bool :=
  !(optarg.head? == some 0x2D) && !redefined

/-- Only the words tcp and udp are taken. -/
def setProtocol (parameters : Parameters) (optarg : Bytes) : Option Parameters :=
  if optarg = ascii "tcp" then some { parameters with tcp := true }
  else if optarg = ascii "udp" then some { parameters with tcp := false }
  else none

/-- The value, and errno.  strtol may set errno on a string without digits: `einval`. -/
def parseInt (einval errno : Bool) (optarg : Bytes) (max : Int) : Option Int × Bool :=
  let read := strtol einval optarg
  let errno := errno || read.errno
  if errno = true ∨ read.endptr ≠ [] ∨ read.val < 0 ∨ read.val > max then (none, errno)
  else (some read.val, errno)

/-- The cases of the switch; an error is a return of EXIT_FAILURE. -/
def argsCase (einval : Bool) (s : ArgsState) : Found Flag Valued → Except ArgsState ArgsState
  | .valued .t optarg =>
      if !checkOptarg optarg s.protocolSet then .error s
      else
        match setProtocol s.parameters optarg with
        | none => .error s
        | some parameters =>
            .ok { s with parameters := parameters, protocolSet := true, onlyOpt := false }
  | .valued .s optarg =>
      if !checkOptarg optarg s.parameters.ipOrDomain.isSome then .error s
      else
        .ok { s with
          parameters := { s.parameters with ipOrDomain := some optarg }
          onlyOpt := false }
  | .valued .p optarg =>
      if !checkOptarg optarg s.portSet then .error s
      else
        match parseInt einval s.errno optarg 65535 with
        | (none, errno) => .error { s with errno := errno }
        | (some _, errno) =>
            .ok { s with
              errno := errno
              onlyOpt := false
              parameters := { s.parameters with port := optarg }
              portSet := true }
  | .valued .d optarg =>
      if !checkOptarg optarg s.timeoutSet then .error s
      else
        match parseInt einval s.errno optarg 65535 with
        | (none, errno) => .error { s with errno := errno }
        | (some result, errno) =>
            .ok { s with
              errno := errno
              onlyOpt := false
              parameters := { s.parameters with timeout := UInt16.ofNat result.toNat }
              timeoutSet := true }
  | .valued .r optarg =>
      if !checkOptarg optarg s.retransmissionsSet then .error s
      else
        match parseInt einval s.errno optarg 255 with
        | (none, errno) => .error { s with errno := errno }
        | (some result, errno) =>
            .ok { s with
              errno := errno
              onlyOpt := false
              parameters := { s.parameters with retransmissions := UInt8.ofNat result.toNat }
              retransmissionsSet := true }
  | .flag .h => if s.helpSet then .error s else .ok { s with helpSet := true }
  | .missing _ => .error s
  | .unknown _ => .error s

/-- What process_args does behind its loop; `passed` are the elements that optind has
not reached. -/
def argsEnd (s : ArgsState) (passed : List Bytes) : ArgsResult :=
  if s.onlyOpt && s.helpSet then .exited (ascii helpText)
  else if s.helpSet then .returned .failure
  else if !s.protocolSet || s.parameters.ipOrDomain.isNone then .returned .failure
  else if passed ≠ [] then .returned .failure
  else .returned .success

/-- getopt is run to its end first: what it finds does not depend on the loop body. -/
def processArgs (einval : Bool) (argv : List Bytes) : Parameters × ArgsResult :=
  let (found, passed) := getopt optstring (argv.drop 1)
  match found.foldlM (argsCase einval) argsStart with
  | .error s => (s.parameters, .returned .failure)
  | .ok s => (s.parameters, argsEnd s passed)

end IpkChat.Core
