import PacketFilter.Foundation.CText
import PacketFilter.Foundation.DirectMapped
import PacketFilter.Foundation.Getopt
import PacketFilter.Foundation.Splitting
import Mathlib.Data.BitVec

/-! # Arguments

What `Arguments::parse_args` makes of the command line, and how it fails.
-/

namespace PacketFilter.Software

open CText

structure Arguments where
  dpdkConfig : Option (List Char)
  numThreads : BitVec 16
  duration : BitVec 32
  /-- Filter format: <ipv4_addr>:<port>,... -/
  filterList : List (List Char)
  deriving DecidableEq

/-- How reading the arguments ends the program: with a fatal log message, or
with an exception that nothing catches. -/
inductive ArgumentFailure where
  | fatal (message : List Char)
  | exception (error : ConversionError)
  deriving DecidableEq

namespace Arguments

def initial : Arguments where
  dpdkConfig := none
  numThreads := 1
  duration := 10
  filterList := []

def known (name : Char) : Bool :=
  name = 'c' || name = 't' || name = 'd' || name = 'f'

def number (text : List Char) : Except ArgumentFailure Int :=
  match stoi text with
  | .ok value => .ok value
  | .error error => .error (.exception error)

def filterTokens (text : List Char) : List (List Char) :=
  Splitting.pieces ',' [] text

def unknownOption (c : Char) : ArgumentFailure :=
  .fatal ("Unknown option: ".toList ++ [c])

def set (arguments : Arguments) (name : Char) (optarg : List Char) :
    Except ArgumentFailure Arguments :=
  if name = 'c' then .ok { arguments with dpdkConfig := some optarg }
  else if name = 't' then do
    let value ← number optarg
    return { arguments with numThreads := BitVec.ofInt 16 value }
  else if name = 'd' then do
    let value ← number optarg
    return { arguments with duration := BitVec.ofInt 32 value }
  else if name = 'f' then
    .ok { arguments with
      filterList := arguments.filterList ++ filterTokens optarg }
  else .error (unknownOption name)

/-- One turn of the loop. `getopt` returns `'?'` for what it does not know. -/
def accept (arguments : Arguments) :
    Getopt.Result → Except ArgumentFailure Arguments
  | .option name optarg => arguments.set name optarg
  | .unknown _ => .error (unknownOption '?')
  | .missing _ => .error (unknownOption '?')

def configMissing : ArgumentFailure :=
  .fatal "DPDK configuration string is required. Use -c option.".toList

/-- `parse_args`, of the arguments behind the name of the program. -/
def parseArgs (argv : List (List Char)) : Except ArgumentFailure Arguments := do
  let arguments ← (Getopt.getopt known argv).foldlM accept initial
  if arguments.dpdkConfig = none then .error configMissing
  else return arguments

theorem known_dash : known '-' = false := rfl

end Arguments

end PacketFilter.Software
