import Reckon.Path.Posix

set_option autoImplicit false

/-!
# Where results are written

The results of an input file go to a file in the same directory, named after the input: its stem,
then its suffixes joined by underscores with every dot turned into an underscore, then
`_results.txt`. An input path without a name has no results path.
-/

namespace Reckon

def dotsToUnderscores (s : String) : String := s.map (fun c => if c = '.' then '_' else c)

/-- The name of the results file for an input named `n`. -/
def FileName.resultsName (n : String) : String :=
  FileName.stem n ++ dotsToUnderscores ("_".intercalate (FileName.suffixes n)) ++ "_results.txt"

/-- The path of the results file for an input path; the input path itself is the error when it has
no name. -/
def PosixPath.resultsPath (p : PosixPath) : Except PosixPath PosixPath :=
  if p.name.isEmpty then .error p else .ok (p.withName (FileName.resultsName p.name))

example : FileName.resultsName "a.tar.xz" = "a.tar_tar__xz_results.txt" ∧
    FileName.resultsName "a...b" = "a.._____b_results.txt" := by
  decide +kernel

end Reckon
