import KconfigQuery.FileSystem
import KconfigQuery.Path
import KconfigQuery.Text.Upper

/-! # Architectures of a kernel tree

A kernel tree has a directory per architecture under `arch`, each with a file `Kconfig`, and a
configuration option named after the architecture.  A build directory outside the kernel tree
reaches the tree through its symbolic link `source`, so the file may be found behind that link
as well.

A few architectures have no option of their own name; `aliases` tells which options stand for
them. -/

namespace KconfigQuery.Architecture

/-- The option that selects an architecture. -/
def option (arch : String) : String :=
  "CONFIG_" ++ Text.upper arch

/-- The directory with the architectures of a kernel tree. -/
def directory (kernelDir : String) : String :=
  Path.join [kernelDir, "arch"]

/-- The link from a build directory to its kernel tree. -/
def sourceLink (kernelDir : String) : String :=
  Path.join [kernelDir, "source"]

/-- The file that an architecture has in its kernel tree. -/
def kconfig (kernelDir arch : String) : String :=
  Path.join [kernelDir, "arch", arch, "Kconfig"]

/-- The kernel directory knows the architecture, itself or through its `source` link. -/
def hasKconfig (files : FileSystem) (kernelDir arch : String) : Bool :=
  files.isFile (kconfig kernelDir arch) ||
    (files.isSymbolicLink (sourceLink kernelDir) &&
      files.isFile (kconfig (sourceLink kernelDir) arch))

/-- An architecture and the options any of which selects it. -/
structure Alias where
  arch : String
  options : List String
deriving DecidableEq

/-- The architectures that are selected by other options than their own, in the order in which
    they are tried. -/
def aliases : List Alias := [
  ⟨"um", ["CONFIG_UML"]⟩,
  ⟨"i386", ["CONFIG_X86_32"]⟩,
  ⟨"x86_64", ["CONFIG_X86_64"]⟩,
  ⟨"powerpc", ["CONFIG_PPC32", "CONFIG_PPC64"]⟩,
  ⟨"sh", ["CONFIG_SUPERH", "CONFIG_SUPERH32", "CONFIG_SUPERH64"]⟩]

/-- The first alias that the built-in options select. -/
def selectedAlias? (builtIn : String → Bool) : Option String :=
  (aliases.find? fun row => row.options.any builtIn).map (·.arch)

end KconfigQuery.Architecture
