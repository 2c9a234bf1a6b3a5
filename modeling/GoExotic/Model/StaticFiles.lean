/-
Module: GoExotic.Model.StaticFiles
Purpose: Package server: which files the dashboard handlers serve, from a directory tree, and the
  identifier of the dashboard bundle. A request answered with a file reads at most that file.
Trusted boundary: package path/filepath on Unix and os.Lstat, as documented; http.ServeFile; SHA-256, as a
  parameter
Main exports: Disk, WebServer, regularFilePath, WebServer.staticAssetPath, WebServer.handleStatic,
  WebServer.handleWeb, WebServer.webBundleID
-/
import GoExotic.Model.Go
import GoExotic.Theory.FileTree

namespace GoExotic

/-- The files of the machine. -/
abbrev Disk := FileTree (List UInt8)

/-- `path.Clean`. -/
def pathClean (path : String) : String := String.ofList (Paths.clean path.toList)

/-- `filepath.Join`. -/
def filepathJoin (elem : List String) : String := String.ofList (Paths.join (elem.map String.toList))

/-- `strings.TrimPrefix`. -/
def trimPrefix (s start : String) : String :=
  if start.toList.isPrefixOf s.toList then String.ofList (s.toList.drop start.toList.length) else s

/-- `regularFilePath`. -/
def regularFilePath (disk : Disk) (file : String) : Option String :=
  match disk.lstat file.toList with
  | some (.file _) => some file
  | _ => none

/-- The answer of a handler that serves files. -/
inductive FileAnswer where
  | notFound
  | methodNotAllowed (methods : List String)
  | serveFile (file : String)
deriving DecidableEq, Repr

/-- `Server`, with the field the dashboard reads. -/
structure WebServer where
  webDir : String
deriving DecidableEq, Repr

namespace WebServer

/-- The directory the dashboard is served from. -/
def dir (s : WebServer) : String := if s.webDir = "" then "web" else s.webDir

/-- `webIndexPath`. -/
def webIndexPath (disk : Disk) (s : WebServer) : Option String :=
  regularFilePath disk (filepathJoin [s.dir, "index.html"])

/-- `staticAssetPath`. -/
def staticAssetPath (disk : Disk) (s : WebServer) (asset : String) : Option String :=
  if asset = "" ∨ asset.toList.getLast? = some '/' ∨ pathClean ("/" ++ asset) ≠ "/" ++ asset then none
  else regularFilePath disk (filepathJoin [s.dir, "static", asset])

/-- `http.ServeFile` of a file that was found, or `http.NotFound`. -/
def serveFound : Option String → FileAnswer
  | none => .notFound
  | some file => .serveFile file

/-- `handleWeb`. -/
def handleWeb (disk : Disk) (s : WebServer) (method urlPath : String) : FileAnswer :=
  if urlPath ≠ "/" then .notFound
  else if method ≠ "GET" ∧ method ≠ "HEAD" then .methodNotAllowed ["GET", "HEAD"]
  else serveFound (s.webIndexPath disk)

/-- `handleStatic`. -/
def handleStatic (disk : Disk) (s : WebServer) (method urlPath : String) : FileAnswer :=
  if method ≠ "GET" ∧ method ≠ "HEAD" then .methodNotAllowed ["GET", "HEAD"]
  else serveFound (s.staticAssetPath disk (trimPrefix urlPath "/static/"))

/-- `webBundleID`, with the short hash of a file. -/
def webBundleID (disk : Disk) (shortHash : List UInt8 → String) (s : WebServer) : String :=
  match s.staticAssetPath disk "app.js" with
  | none => ""
  | some file =>
      match disk.readFile file.toList with
      | none => ""
      | some data => shortHash data

end WebServer

end GoExotic
