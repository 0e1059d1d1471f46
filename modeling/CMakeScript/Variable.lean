/-!
# Variables of a script

The names of the variables through which a script hands lists of files to its rules. A list is bound
to the variable in one place and read from it in another, so both take the name from here.
-/

namespace CMakeScript

/-- The text that CMake replaces by the value of a variable. -/
def reference (name : String) : String := "$\x7b" ++ name ++ "\x7d"

namespace Variable

def sources (module : String) : String := module ++ "_SOURCES"

def libraries (module : String) : String := module ++ "_LIBRARIES"

def libdirs (module : String) : String := module ++ "_LIBDIRS"

def incdirs (module : String) : String := module ++ "_INCDIRS"

def defines (module : String) : String := module ++ "_DEFINES"

def installLua : String := "BUILD_INSTALL_LUA"

def installLib : String := "BUILD_INSTALL_LIB"

def installConf : String := "BUILD_INSTALL_CONF"

def installBin : String := "BUILD_INSTALL_BIN"

def copyDirectories : String := "BUILD_COPY_DIRECTORIES"

end Variable

end CMakeScript
