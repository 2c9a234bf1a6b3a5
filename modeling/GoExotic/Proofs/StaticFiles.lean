/-
Module: GoExotic.Proofs.StaticFiles
Purpose: What static assets can reach. An accepted asset consists of plain names, so it is looked up below
  the static directory; but the entry is checked only at its end, and a link before the end is followed.
  An asset is a real file under the static directory exactly when no name before its last is a link there.
Trusted boundary: none
Main exports: WebServer.staticRoot, RealAsset, NoLinkBefore, Located, staticAssetPath_located,
  static_assets_confined_iff
-/
import GoExotic.Model.StaticFiles

namespace GoExotic

open Paths

variable {disk : Disk} {s : WebServer} {asset file : String}

/-- Where the static directory is. -/
def WebServer.staticRoot (disk : Disk) (s : WebServer) : Option (List Name) :=
  disk.locate true (filepathJoin [s.dir, "static"]).toList

/-- No name of the asset but the last is a link under the static directory. -/
def NoLinkBefore (disk : Disk) (s : WebServer) (asset : String) : Prop :=
  ∀ root, s.staticRoot disk = some root → ∀ k, 0 < k → k < (components asset.toList).length →
    ∀ target, disk.node (root ++ (components asset.toList).take k) ≠ some (.link target)

/-- The file is what the names of the asset lead to from the static directory, through directories and not
through links, and reading the file reads it. -/
structure RealAsset (disk : Disk) (s : WebServer) (asset file : String) : Prop where
  plain : ∀ name ∈ components asset.toList, Plain name
  walked : ∃ root data, s.staticRoot disk = some root ∧
    (∀ k, 0 < k → k < (components asset.toList).length →
      disk.node (root ++ (components asset.toList).take k) = some .dir) ∧
    disk.node (root ++ components asset.toList) = some (.file data) ∧
    disk.locate true file.toList = some (root ++ components asset.toList) ∧
    disk.readFile file.toList = some data

/-- How an accepted asset is found: its names are looked up from the static directory, and a link at the
end would not be followed. -/
structure Located (disk : Disk) (s : WebServer) (asset file : String) (root found : List Name)
    (data : List UInt8) : Prop where
  plain : ∀ name ∈ components asset.toList, Plain name
  rooted : s.staticRoot disk = some root
  below : ∃ left, disk.resolve false left root (components asset.toList) = some found
  isFile : disk.node found = some (.file data)
  located : disk.locate true file.toList = some found
  read : disk.readFile file.toList = some data

theorem WebServer.dir_nonempty (s : WebServer) : s.dir.toList ≠ [] := by
  rw [dir]
  split_ifs with default
  · decide
  · intro empty
    exact default (String.toList_eq_nil_iff.mp empty)

theorem regularFilePath_eq_some {path : String} (regular : regularFilePath disk path = some file) :
    file = path ∧ ∃ data, disk.lstat path.toList = some (.file data) := by
  rw [regularFilePath] at regular
  split at regular
  · next data entry => exact ⟨(Option.some.inj regular).symm, data, entry⟩
  · cases regular

/-- Every accepted asset is looked up from the static directory. -/
theorem staticAssetPath_located (accepted : s.staticAssetPath disk asset = some file) :
    ∃ root found data, Located disk s asset file root found data := by
  rw [WebServer.staticAssetPath] at accepted
  split_ifs at accepted with refused
  simp only [not_or, not_not, ne_eq] at refused
  obtain ⟨given, -, clean⟩ := refused
  have nonempty : asset.toList ≠ [] := fun empty => given (String.toList_eq_nil_iff.mp empty)
  have plain : ∀ name ∈ components asset.toList, Plain name := by
    apply plain_of_clean nonempty
    have texts := congrArg String.toList clean
    rw [pathClean, String.toList_ofList, String.toList_append] at texts
    exact texts
  obtain ⟨rfl, data, entry⟩ := regularFilePath_eq_some accepted
  obtain ⟨found, located, lookedUp, isFile, read⟩ := FileTree.readFile_of_lstat entry
  obtain ⟨names, sameRoot⟩ := components_join_append s.dir_nonempty
    (by decide : ∀ name ∈ components "static".toList, Plain name) plain
  have whole : (filepathJoin [s.dir, "static", asset]).toList =
      join [s.dir.toList, "static".toList, asset.toList] := String.toList_ofList
  have base : (filepathJoin [s.dir, "static"]).toList = join [s.dir.toList, "static".toList] :=
    String.toList_ofList
  rw [whole, FileTree.locate, names, sameRoot] at lookedUp
  obtain ⟨left, root, start, rest⟩ := FileTree.resolve_append (components_ne_nil asset.toList) lookedUp
  have rooted : s.staticRoot disk = some root := by
    rw [WebServer.staticRoot, base]
    exact start
  exact ⟨root, found, data, plain, rooted, ⟨left, rest⟩, isFile, located, read⟩

namespace Located

variable {root found : List Name} {data : List UInt8}

/-- Without a link on the way, the file is the one the names lead to. -/
theorem realAsset (at_ : Located disk s asset file root found data) (noLink : NoLinkBefore disk s asset) :
    RealAsset disk s asset file := by
  obtain ⟨left, below⟩ := at_.below
  obtain ⟨rfl, dirs⟩ := FileTree.resolve_direct at_.plain (noLink root at_.rooted) below
  exact ⟨at_.plain, root, data, at_.rooted, dirs, at_.isFile, at_.located, at_.read⟩

end Located

theorem RealAsset.noLinkBefore (real : RealAsset disk s asset file) : NoLinkBefore disk s asset := by
  obtain ⟨root, -, rooted, dirs, -⟩ := real.walked
  intro other alsoRooted k above below target isLink
  rw [rooted, Option.some.injEq] at alsoRooted
  rw [← alsoRooted, dirs k above below] at isLink
  cases isLink

/-! ### Confinement -/

/-- An accepted asset is a real file under the static directory, and a request for it reads that file. -/
structure Confined (disk : Disk) (s : WebServer) (asset file : String) : Prop where
  real : RealAsset disk s asset file
  served : ∀ method urlPath answer, trimPrefix urlPath "/static/" = asset →
    s.handleStatic disk method urlPath = .serveFile answer →
      ∃ root, s.staticRoot disk = some root ∧
        disk.locate true answer.toList = some (root ++ components asset.toList)

/-- The identifier of the bundle, if there is one, is the hash of the file right under the static directory. -/
def HashesOwnBundle (disk : Disk) (s : WebServer) : Prop :=
  ∀ shortHash : List UInt8 → String, s.webBundleID disk shortHash = "" ∨
    ∃ root data, s.staticRoot disk = some root ∧ disk.node (root ++ ["app.js".toList]) = some (.file data) ∧
      s.webBundleID disk shortHash = shortHash data

theorem RealAsset.confined (real : RealAsset disk s asset file)
    (accepted : s.staticAssetPath disk asset = some file) : Confined disk s asset file := by
  refine ⟨real, ?_⟩
  rintro method urlPath answer rfl served
  rw [WebServer.handleStatic] at served
  split_ifs at served
  rw [accepted, WebServer.serveFound, FileAnswer.serveFile.injEq] at served
  obtain ⟨root, -, rooted, -, -, located, -⟩ := real.walked
  exact ⟨root, rooted, served ▸ located⟩

/-- The only name of the bundle is its last. -/
theorem hashesOwnBundle (disk : Disk) (s : WebServer) : HashesOwnBundle disk s := by
  intro shortHash
  rw [WebServer.webBundleID]
  cases accepted : s.staticAssetPath disk "app.js" with
  | none => exact Or.inl rfl
  | some file =>
      obtain ⟨root, found, data, at_⟩ := staticAssetPath_located accepted
      have single : components "app.js".toList = ["app.js".toList] := by decide
      have noLink : NoLinkBefore disk s "app.js" := by
        intro root _ k above below
        rw [single, List.length_singleton] at below
        omega
      obtain ⟨root, data, rooted, -, isFile, -, read⟩ := (at_.realAsset noLink).walked
      rw [single] at isFile
      exact Or.inr ⟨root, data, rooted, isFile, by simp only [read]⟩

/-- An accepted asset is confined to the static directory exactly if no name of it but the last is a link
there; the bundle always is. -/
theorem static_assets_confined_iff (disk : Disk) (s : WebServer) (asset file : String)
    (accepted : s.staticAssetPath disk asset = some file) :
    (Confined disk s asset file ↔ NoLinkBefore disk s asset) ∧ HashesOwnBundle disk s := by
  refine ⟨⟨fun confined => confined.real.noLinkBefore, ?_⟩, hashesOwnBundle disk s⟩
  intro noLink
  obtain ⟨root, found, data, at_⟩ := staticAssetPath_located accepted
  exact (at_.realAsset noLink).confined accepted

/-- A dashboard with a nested asset, and a link in its static directory to a directory outside. -/
def linkedDisk : Disk where
  node path := [
    (["srv"], FileTree.Node.dir),
    (["srv", "web"], .dir),
    (["srv", "web", "static"], .dir),
    (["srv", "web", "static", "nested"], .dir),
    (["srv", "web", "static", "nested", "app.css"], .file [35]),
    (["srv", "web", "static", "out"], .link "/srv/private".toList),
    (["srv", "private"], .dir),
    (["srv", "private", "key"], .file [42])].lookup (path.map String.ofList)
  workDir := []
  maxLinks := 40

/-- The link is followed, and the file outside is served. -/
theorem linked_directory_served :
    WebServer.staticAssetPath linkedDisk ⟨"/srv/web"⟩ "out/key" = some "/srv/web/static/out/key" ∧
      WebServer.handleStatic linkedDisk ⟨"/srv/web"⟩ "GET" "/static/out/key" =
        .serveFile "/srv/web/static/out/key" ∧
      linkedDisk.locate true "/srv/web/static/out/key".toList =
        some ["srv".toList, "private".toList, "key".toList] ∧
      linkedDisk.readFile "/srv/web/static/out/key".toList = some [42] ∧
      ¬ Confined linkedDisk ⟨"/srv/web"⟩ "out/key" "/srv/web/static/out/key" := by
  refine ⟨by decide +kernel, by decide +kernel, by decide +kernel, by decide +kernel, ?_⟩
  intro confined
  exact confined.real.noLinkBefore ["srv".toList, "web".toList, "static".toList] (by decide +kernel) 1
    (by decide) (by decide) "/srv/private".toList (by decide +kernel)

/-- A nested asset is confined. -/
theorem static_assets_confined_nested :
    Confined linkedDisk ⟨"/srv/web"⟩ "nested/app.css" "/srv/web/static/nested/app.css" ∧
      HashesOwnBundle linkedDisk ⟨"/srv/web"⟩ := by
  have whole := static_assets_confined_iff linkedDisk ⟨"/srv/web"⟩ "nested/app.css"
    "/srv/web/static/nested/app.css" (by decide +kernel)
  refine ⟨whole.1.mpr ?_, whole.2⟩
  intro root rooted k above below target isLink
  have isRoot : WebServer.staticRoot linkedDisk ⟨"/srv/web"⟩ =
      some ["srv".toList, "web".toList, "static".toList] := by
    decide +kernel
  rw [isRoot, Option.some.injEq] at rooted
  have length : (components "nested/app.css".toList).length = 2 := by decide
  have first : k = 1 := by omega
  subst rooted first
  have entry : linkedDisk.node (["srv".toList, "web".toList, "static".toList] ++
      (components "nested/app.css".toList).take 1) = some .dir := by
    decide +kernel
  rw [entry] at isLink
  cases isLink

end GoExotic
