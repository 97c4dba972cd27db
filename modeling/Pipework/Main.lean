import Pipework.CommandLine

/-!
# The program

Hands the arguments and the environment to the command line, prints what comes of it, and exits with
its code.
-/

open Pipework

/-- Runs the command. The number of processors cannot be asked for and is taken to be one. -/
def main (args : List String) : IO UInt32 := do
  let t := CommandLine.run args (← IO.getEnv "SLUICE_NTHREADS") 1
  for line in t.output do
    IO.println line
  unless t.complaint.isEmpty do
    IO.eprintln t.complaint
  return t.exit.toUInt32
