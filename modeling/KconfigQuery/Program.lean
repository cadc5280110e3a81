/-! # The program's name and version -/

namespace KconfigQuery.Program

/-- The name by which the program is called. -/
def name : String := "kconfig-probe"

/-- The version of the program. -/
def version : String := "0.1.0"

/-- The name with the version. -/
def title : String := name ++ " v" ++ version

end KconfigQuery.Program
