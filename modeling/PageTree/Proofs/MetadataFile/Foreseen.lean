import PageTree.Proofs.Foreseen
import PageTree.Proofs.Yaml.Faults

/-!
# Which ends of loading are foreseen

Loading is meant to end with a tree that names a space, or with a failure that names the metadata file. A
path that no file can have is not foreseen, and neither are some faults of YAML texts, which are met when a
text is turned into the value that its tag asks for. A tame text has none of those.
-/

set_option autoImplicit false

namespace PageTree.Metadata

variable {path : Path} {w : World} {s : Text} {cause : Cause}

end PageTree.Metadata
