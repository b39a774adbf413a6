/-!
# Paths

The few files of the machine on which children and serial lines are rehearsed.
-/

namespace Observatory.Rehearsal

inductive Place where
  | missing
  /-- The path goes on behind something that is no directory. -/
  | beyondFile
  | directory
  | plainFile
  | program (name : String)
  /-- The near end of a serial line. -/
  | terminal
  deriving DecidableEq

/-- The programs, by the names that their commands have; shells go by several names. -/
def programs : List (String × String) :=
  [("sh", "sh"), ("dash", "sh"), ("bash", "sh"), ("true", "true"), ("false", "false"),
    ("echo", "echo"), ("printf", "printf"), ("cat", "cat"), ("kill", "kill"), ("sleep", "sleep"),
    ("test", "test"), ("[", "[")]

def directories : List String :=
  ["/", "/bin", "/usr/bin", "/usr", "/etc", "/tmp", "/dev", "/var", "/home", "/root", "/proc", "."]

/-- The files that are no programs. -/
def plainFiles : List String :=
  ["/etc/passwd", "/etc/group", "/etc/hosts", "/etc/hostname", "/dev/null", "/dev/zero"]

def programOf? (path : String) : Option String :=
  match path.splitOn "/" with
  | ["", "bin", name] | ["", "usr", "bin", name] => programs.lookup name
  | _ => none

def isBeyondFile (path : String) : Bool :=
  (plainFiles ++ ["/bin/sh", "/bin/true", "/bin/false"]).any fun file =>
    path.startsWith (file ++ "/")

def placeOf (path : String) : Place :=
  if path = "tty" then .terminal
  else if isBeyondFile path then .beyondFile
  else if directories.contains path ||
      directories.any fun d => d != "/" && path == d ++ "/" then .directory
  else if plainFiles.contains path then .plainFile
  else match programOf? path with
    | some name => .program name
    | none => .missing

end Observatory.Rehearsal
