import DeploymentRouting.Config.File
/-!
Files held in memory, by their paths from one directory. There is nothing above that
directory, and a path from the root leads nowhere.
-/
namespace DeploymentRouting

abbrev FileTree := Table String

namespace FileTree

/-- The text of the file at the end of some steps. -/
def file? (files : FileTree) (steps : List String) : Option String :=
  files.get? ("/".intercalate steps)

/-- Whether some steps lead to a directory, which is one that holds files. -/
def isDirectory (files : FileTree) (steps : List String) : Bool :=
  steps.isEmpty || files.keys.any (("/".intercalate steps ++ "/").isPrefixOf ·)

/-- Where a path leads to, when some steps of it have been taken and others are left. -/
def walk (files : FileTree) (taken : List String) : List String → Except FileError (List String)
  | [] => .ok taken
  | step :: rest =>
      if files.isDirectory taken then
        if step = "" ∨ step = "." then files.walk taken rest
        else if step = ".." then
          if taken.isEmpty then .error .notFound else files.walk taken.dropLast rest
        else files.walk (taken ++ [step]) rest
      else .error (if (files.file? taken).isSome then .notDirectory else .notFound)

/-- The text of the file that a path leads to. -/
def read (files : FileTree) (path : String) : Except FileError String :=
  if path.startsWith "/" then .error .notFound
  else do
    let steps ← files.walk [] (path.splitOn "/")
    match files.file? steps with
    | some text => .ok text
    | none => .error (if files.isDirectory steps then .isDirectory else .notFound)

end FileTree

end DeploymentRouting
