/-
Module: GoExotic.Proofs.LocalModels
Purpose: What the model inventory says about the disk. Its models are the first directories of the root in
  the order of their names; a model is complete exactly when its directory holds the files it needs, and the
  files listed for it are those the model helpers list for its path. The last two hold of the directory that
  was listed if the root goes up only before it goes down.
Trusted boundary: os.ReadDir, as the hypothesis ReadsVolume
Main exports: Volume, ReadsVolume, DescribesRoot, local_models_describe_root
-/
import GoExotic.Model.LocalModels
import GoExotic.Theory.Directories

namespace GoExotic

open Paths Sorting

/-! ### Disks that can be listed -/

/-- A disk, with the names in each of its directories. -/
structure Volume where
  disk : Disk
  names : List Name → List String
  listed : ∀ dir name, name ∈ names dir ↔ disk.node (dir ++ [name.toList]) ≠ none
  distinct : ∀ dir, (names dir).Nodup
  plain : ∀ dir, ∀ name ∈ names dir, Plain name.toList ∧ '/' ∉ name.toList

namespace Volume

variable (v : Volume)

/-- The directory a path leads to. -/
def dirAt (path : String) : Option (List Name) :=
  (v.disk.locate true path.toList).filter fun dir => v.disk.IsDir dir

/-- `os.ReadDir` and `IsDir` of the entries. -/
def rootEntries (dir : List Name) : List RootEntry :=
  (v.names dir).map fun name => ⟨name, decide (v.disk.node (dir ++ [name.toList]) = some .dir)⟩

/-- `os.ReadDir` and `entryRegularFile` of the entries. -/
def entries (dir : List Name) : List DirEntry :=
  (v.names dir).map fun name => ⟨name, match v.disk.node (dir ++ [name.toList]) with
    | some (.file _) => true
    | _ => false⟩

variable {v}

theorem dirAt_eq_some {path : String} {dir : List Name} :
    v.dirAt path = some dir ↔ v.disk.locate true path.toList = some dir ∧ v.disk.IsDir dir := by
  rw [dirAt, Option.filter_eq_some_iff, decide_eq_true_eq]

theorem mem_rootEntries {dir : List Name} {entry : RootEntry} :
    entry ∈ (v.rootEntries dir).filter (fun entry => entry.isDir) ↔
      entry.isDir = true ∧ v.disk.node (dir ++ [entry.name.toList]) = some .dir := by
  rw [List.mem_filter, rootEntries, List.mem_map]
  constructor
  · rintro ⟨⟨name, -, rfl⟩, isDir⟩
    exact ⟨isDir, of_decide_eq_true isDir⟩
  · rintro ⟨isDir, entryDir⟩
    refine ⟨⟨entry.name, (v.listed dir entry.name).mpr (by simp [entryDir]), ?_⟩, isDir⟩
    rw [entryDir, decide_eq_true rfl, ← isDir]

theorem mem_entries {dir : List Name} {name : String} :
    (∃ entry ∈ v.entries dir, entry.name = name ∧ entry.isRegular = true) ↔
      ∃ data, v.disk.node (dir ++ [name.toList]) = some (.file data) := by
  simp only [entries, List.mem_map]
  constructor
  · rintro ⟨-, ⟨other, -, rfl⟩, rfl, regular⟩
    dsimp only at regular ⊢
    split at regular
    · next data isFile => exact ⟨data, isFile⟩
    · cases regular
  · rintro ⟨data, isFile⟩
    exact ⟨_, ⟨name, (v.listed dir name).mpr (by simp [isFile]), rfl⟩, rfl, by rw [isFile]⟩

/-- Directories have one name each. -/
theorem rootEntries_distinct (dir : List Name) :
    (((v.rootEntries dir).filter fun entry => entry.isDir).map RootEntry.name).Nodup := by
  refine (List.Sublist.nodup (List.filter_sublist.map RootEntry.name) ?_)
  rw [rootEntries, List.map_map]
  exact (List.map_id (v.names dir)).symm ▸ v.distinct dir

end Volume

/-- Directories are read as they are on the disk, and every one of them can be read. -/
structure ReadsVolume (lib : InventoryLib) (v : Volume) : Prop where
  lists : ∀ path dir, v.dirAt path = some dir → lib.listDir path = .ok (v.rootEntries dir)
  refuses : ∀ path, v.dirAt path = none → ∃ err, lib.listDir path = .error err
  files : ∀ path dir, v.dirAt path = some dir → lib.readDir path = v.entries dir

/-! ### One model -/

/-- A pattern is present if a regular file of the directory matches it, however many do. -/
theorem modelFileStatus_present (go : GoLib) (lib : HelperLib) (entries : List DirEntry) (pattern : String) :
    (modelFileStatus go lib entries pattern).present = true ↔
      ∃ entry ∈ entries, lib.filepathMatch pattern entry.name = some true ∧ entry.isRegular = true := by
  have length : ∀ found : List String,
      (if decide (found.length > maxModelFileStatusMatches) then found.take maxModelFileStatusMatches
        else found).length > 0 ↔ found ≠ [] := by
    intro found
    rw [← List.length_pos_iff]
    split_ifs with long
    · have above := of_decide_eq_true long
      rw [List.length_take, maxModelFileStatusMatches] at *
      omega
    · rfl
  rw [modelFileStatus]
  dsimp only
  rw [decide_eq_true_eq, length, ← List.length_pos_iff, (go.sort.byKey_perm id _).length_eq, List.length_map,
    List.length_pos_iff, ne_eq, List.filter_eq_nil_iff]
  simp only [not_forall, not_not, exists_prop, decide_eq_true_eq]

/-- The path of a model is a directory name after the root, and never empty. -/
theorem filepathJoin_ne_empty {root : String} (given : root ≠ "") (name : String) :
    filepathJoin [root, name] ≠ "" := by
  have nonempty : root.toList ≠ [] := fun empty => given (String.toList_eq_nil_iff.mp empty)
  intro empty
  have texts := congrArg String.toList empty
  rw [filepathJoin, String.toList_ofList, List.map_cons, List.map_cons, List.map_nil,
    join_pair nonempty] at texts
  exact clean_ne_nil _ texts

theorem inventoryRoot_ne_empty (root : String) : inventoryRoot root ≠ "" := by
  rw [inventoryRoot]
  split_ifs with empty
  · decide
  · exact empty

/-- The limit in effect is positive, and no more than the largest one. -/
theorem inventoryLimit_bounds {rawLimit : String} {limit : Int} (inEffect : inventoryLimit rawLimit = some limit) :
    0 < limit ∧ limit ≤ maxLocalModelInventory := by
  rw [inventoryLimit] at inEffect
  split_ifs at inEffect with empty
  · cases inEffect
    decide
  · cases parse : atoi rawLimit with
    | none =>
        rw [parse] at inEffect
        cases inEffect
    | some parsed =>
        rw [parse] at inEffect
        dsimp only at inEffect
        split_ifs at inEffect with notPositive less
        · cases inEffect
          omega
        · cases inEffect
          decide

/-! ### The inventory -/

/-- What an inventory says about the directory that its root leads to. -/
structure DescribesRoot (go : GoLib) (lib : InventoryLib) (v : Volume) (root : String) (dir : List Name)
    (limit : Int) (resp : LocalModelsResponse) : Prop where
  /-- The models are directories of the root, in the order of their names. -/
  directories : ∀ m ∈ resp.models, v.disk.node (dir ++ [m.id.toList]) = some .dir
  ascending : (resp.models.map LocalModel.id).Pairwise (· < ·)
  bounded : 0 < limit ∧ limit ≤ maxLocalModelInventory ∧ (resp.models.length : Int) ≤ limit
  /-- A directory is left out only if the limit is reached, and then comes after those that are not. -/
  left_out : ∀ name : String, v.disk.node (dir ++ [name.toList]) = some .dir →
    name ∉ resp.models.map LocalModel.id →
      (resp.models.length : Int) = limit ∧ ∀ m ∈ resp.models, m.id < name
  truncated : resp.truncated = true ↔
    ∃ name : String, v.disk.node (dir ++ [name.toList]) = some .dir ∧ name ∉ resp.models.map LocalModel.id
  /-- The helpers list the same files for the path of a model. -/
  helpers : ∀ m ∈ resp.models, ∀ model, m.files = (modelHelpers go lib.toHelperLib model m.path).files
  /-- The path of a model leads to its directory. -/
  located : GoesUpFirst (components root.toList) → ∀ m ∈ resp.models,
    v.disk.locate true m.path.toList = some (dir ++ [m.id.toList])
  /-- A model is complete exactly if its directory has a regular file for each pattern. -/
  complete : GoesUpFirst (components root.toList) → ∀ m ∈ resp.models, (m.complete = true ↔
    ∀ pattern ∈ requiredModelFiles, ∃ (file : String) (data : List UInt8),
      v.disk.node (dir ++ [m.id.toList] ++ [file.toList]) = some (.file data) ∧
        lib.filepathMatch pattern file = some true)

section Inventory

variable {go : GoLib} {lib : InventoryLib} {v : Volume} {root : String} {dir : List Name} {limit : Int}

/-- The path of a directory of the root leads to it. -/
theorem dirAt_join (given : root ≠ "") (goesUpFirst : GoesUpFirst (components root.toList))
    (isRoot : v.dirAt root = some dir) {name : String}
    (entry : v.disk.node (dir ++ [name.toList]) = some .dir) :
    v.dirAt (filepathJoin [root, name]) = some (dir ++ [name.toList]) := by
  obtain ⟨located, isDir⟩ := Volume.dirAt_eq_some.mp isRoot
  have isListed : name ∈ v.names dir := (v.listed dir name).mpr (by simp [entry])
  obtain ⟨plain, noSlash⟩ := v.plain dir name isListed
  have nonempty : root.toList ≠ [] := fun empty => given (String.toList_eq_nil_iff.mp empty)
  refine Volume.dirAt_eq_some.mpr ⟨?_, Or.inr entry⟩
  rw [filepathJoin, String.toList_ofList]
  exact FileTree.locate_join nonempty goesUpFirst located isDir plain noSlash entry

/-- A model is complete exactly if its directory has the files. -/
theorem localModel_complete (reads : ReadsVolume lib v) (given : root ≠ "")
    (goesUpFirst : GoesUpFirst (components root.toList)) (isRoot : v.dirAt root = some dir) {entry : RootEntry}
    (isDir : v.disk.node (dir ++ [entry.name.toList]) = some .dir) :
    (localModel go lib.toHelperLib root entry).complete = true ↔
      ∀ pattern ∈ requiredModelFiles, ∃ (file : String) (data : List UInt8),
        v.disk.node (dir ++ [entry.name.toList] ++ [file.toList]) = some (.file data) ∧
          lib.filepathMatch pattern file = some true := by
  have read := reads.files _ _ (dirAt_join given goesUpFirst isRoot isDir)
  simp only [localModel, modelFileStatuses, List.all_map, List.all_eq_true, Function.comp_apply, read,
    modelFileStatus_present]
  refine forall_congr' fun pattern => imp_congr_right fun _ => ?_
  constructor
  · rintro ⟨item, member, fits, regular⟩
    obtain ⟨data, isFile⟩ := Volume.mem_entries.mp ⟨item, member, rfl, regular⟩
    exact ⟨item.name, data, isFile, fits⟩
  · rintro ⟨file, data, isFile, fits⟩
    obtain ⟨item, member, rfl, regular⟩ := Volume.mem_entries.mpr ⟨data, isFile⟩
    exact ⟨item, member, fits, regular⟩

/-- The first elements of a strictly ascending list, and those after them. -/
theorem ids_localModels (reads : ReadsVolume lib v) (given : root ≠ "") (isRoot : v.dirAt root = some dir)
    (bounds : 0 < limit ∧ limit ≤ maxLocalModelInventory) :
    DescribesRoot go lib v root dir limit
      (localModels go lib.toHelperLib root limit (v.rootEntries dir)) := by
  generalize isDirs : go.sort.byKey RootEntry.name ((v.rootEntries dir).filter fun entry => entry.isDir) = dirs
  have ascending : dirs.Pairwise fun a b => a.name < b.name :=
    isDirs ▸ go.sort.byKey_pairwise_lt RootEntry.name (v.rootEntries_distinct dir)
  have member : ∀ entry, entry ∈ dirs ↔ entry.isDir = true ∧ v.disk.node (dir ++ [entry.name.toList]) = some .dir := by
    intro entry
    rw [← isDirs, SortSlice.mem_byKey, Volume.mem_rootEntries]
  -- what is listed is the start of the sorted directories
  have taken : (if decide ((dirs.length : Int) > limit) then dirs.take limit.toNat else dirs) =
      dirs.take limit.toNat := by
    split_ifs with long
    · rfl
    · rw [decide_eq_true_eq] at long
      exact (List.take_of_length_le (by omega)).symm
  have response : localModels go lib.toHelperLib root limit (v.rootEntries dir) =
      ⟨root, (dirs.take limit.toNat).map (localModel go lib.toHelperLib root),
        decide ((dirs.length : Int) > limit), limit⟩ := by
    rw [localModels, isDirs, taken]
  have ids : ((dirs.take limit.toNat).map (localModel go lib.toHelperLib root)).map LocalModel.id =
      (dirs.take limit.toNat).map RootEntry.name := by
    rw [List.map_map]
    rfl
  have split := (List.take_append_drop limit.toNat dirs)
  have apart := List.pairwise_append.mp (split.symm ▸ ascending)
  have later : ∀ name : String, v.disk.node (dir ++ [name.toList]) = some .dir →
      name ∉ (dirs.take limit.toNat).map RootEntry.name →
        ∃ entry ∈ dirs.drop limit.toNat, entry.name = name := by
    intro name isDir missing
    have found : (⟨name, true⟩ : RootEntry) ∈ dirs := (member _).mpr ⟨rfl, isDir⟩
    rw [← split, List.mem_append] at found
    rcases found with early | late
    · exact absurd (List.mem_map_of_mem early) missing
    · exact ⟨_, late, rfl⟩
  have fromDirs : ∀ m ∈ (dirs.take limit.toNat).map (localModel go lib.toHelperLib root),
      ∃ entry ∈ dirs.take limit.toNat, localModel go lib.toHelperLib root entry = m ∧
        v.disk.node (dir ++ [entry.name.toList]) = some .dir := by
    intro m listed
    obtain ⟨entry, early, rfl⟩ := List.mem_map.mp listed
    exact ⟨entry, early, rfl, ((member entry).mp (List.mem_of_mem_take early)).2⟩
  rw [response]
  constructor
  case directories =>
    intro m listed
    obtain ⟨entry, -, rfl, isDir⟩ := fromDirs m listed
    exact isDir
  case ascending =>
    rw [ids]
    exact List.pairwise_map.mpr apart.1
  case bounded =>
    refine ⟨bounds.1, bounds.2, ?_⟩
    rw [List.length_map, List.length_take]
    omega
  case left_out =>
    intro name isDir missing
    rw [ids] at missing
    obtain ⟨entry, late, rfl⟩ := later name isDir missing
    refine ⟨?_, ?_⟩
    · have long := List.length_pos_of_mem late
      rw [List.length_drop] at long
      rw [List.length_map, List.length_take]
      omega
    · intro m listed
      obtain ⟨other, early, rfl, -⟩ := fromDirs m listed
      exact apart.2.2 other early entry late
  case truncated =>
    rw [ids, decide_eq_true_eq]
    constructor
    · intro long
      have some : dirs.drop limit.toNat ≠ [] := by
        rw [← List.length_pos_iff, List.length_drop]
        omega
      obtain ⟨entry, rest, isDrop⟩ := List.exists_cons_of_ne_nil some
      have late : entry ∈ dirs.drop limit.toNat := isDrop ▸ List.mem_cons_self
      refine ⟨entry.name, ((member entry).mp (List.mem_of_mem_drop late)).2, ?_⟩
      intro early
      obtain ⟨other, isEarly, same⟩ := List.mem_map.mp early
      exact absurd same (ne_of_lt (apart.2.2 other isEarly entry late))
    · rintro ⟨name, isDir, missing⟩
      obtain ⟨entry, late, -⟩ := later name isDir missing
      have long := List.length_pos_of_mem late
      rw [List.length_drop] at long
      omega
  case helpers =>
    intro m listed model
    obtain ⟨entry, -, rfl, -⟩ := fromDirs m listed
    have isPath : helperModelPath model (filepathJoin [root, entry.name]) = filepathJoin [root, entry.name] :=
      if_neg (filepathJoin_ne_empty given entry.name)
    rw [modelHelpers, localModel]
    dsimp only
    rw [isPath]
    rfl
  case located =>
    intro goesUpFirst m listed
    obtain ⟨entry, -, rfl, isDir⟩ := fromDirs m listed
    exact (Volume.dirAt_eq_some.mp (dirAt_join given goesUpFirst isRoot isDir)).1
  case complete =>
    intro goesUpFirst m listed
    obtain ⟨entry, -, rfl, isDir⟩ := fromDirs m listed
    exact localModel_complete reads given goesUpFirst isRoot isDir

end Inventory

/-- The inventory describes its root: for any disk and any query, `/models/local` answers 400 exactly if the limit
is no positive integer or the root is no directory, and otherwise with the first directories of the root in the
order of their names, each with the state of its files. -/
theorem local_models_describe_root (go : GoLib) (wire : WireLib) (lib : InventoryLib) (v : Volume)
    (reads : ReadsVolume lib v) (r : HttpRequest) (get : r.method = "GET") :
    ((handleLocalModels go wire lib r).status = 400 ↔
      inventoryLimit (lib.queryGet r.url "limit") = none ∨
        v.dirAt (inventoryRoot (lib.queryGet r.url "root")) = none) ∧
      ∀ limit dir, inventoryLimit (lib.queryGet r.url "limit") = some limit →
        v.dirAt (inventoryRoot (lib.queryGet r.url "root")) = some dir →
          ∃ resp, handleLocalModels go wire lib r = writeJSON 200 [] (lib.encodeModels resp) ∧
            DescribesRoot go lib v (inventoryRoot (lib.queryGet r.url "root")) dir limit resp := by
  have given := inventoryRoot_ne_empty (lib.queryGet r.url "root")
  rw [handleLocalModels, if_neg (not_not.mpr get)]
  generalize inventoryRoot (lib.queryGet r.url "root") = root at given ⊢
  cases inEffect : inventoryLimit (lib.queryGet r.url "limit") with
  | none =>
      refine ⟨iff_of_true rfl (Or.inl rfl), ?_⟩
      rintro _ _ ⟨⟩
  | some limit =>
      dsimp only
      cases isRoot : v.dirAt root with
      | none =>
          obtain ⟨err, refused⟩ := reads.refuses root isRoot
          rw [refused]
          refine ⟨iff_of_true rfl (Or.inr rfl), ?_⟩
          rintro _ _ - ⟨⟩
      | some dir =>
          rw [reads.lists root dir isRoot]
          refine ⟨iff_of_false (by simp [writeJSON]) (by simp), ?_⟩
          rintro _ _ ⟨⟩ ⟨⟩
          exact ⟨_, rfl, ids_localModels reads given isRoot (inventoryLimit_bounds inEffect)⟩

/-! ### A disk from a table -/

section Table

variable (table : List (List String × FileTree.Node (List UInt8)))

/-- The names right below a directory in a table of entries. -/
def tableNames (dir : List Name) : List String :=
  (table.map Prod.fst).filterMap fun path =>
    if path = dir.map String.ofList ++ [path.getLastD ""] then some (path.getLastD "") else none

variable {table}

theorem mem_tableNames {dir : List Name} {name : String} :
    name ∈ tableNames table dir ↔ dir.map String.ofList ++ [name] ∈ table.map Prod.fst := by
  rw [tableNames, List.mem_filterMap]
  constructor
  · rintro ⟨path, member, isName⟩
    rw [Option.ite_none_right_eq_some, Option.some.injEq] at isName
    obtain ⟨isPath, rfl⟩ := isName
    rwa [isPath] at member
  · intro member
    refine ⟨_, member, ?_⟩
    rw [List.getLastD_concat, if_pos rfl]

/-- The disk whose entries a table lists, each once and by a plain name. -/
def Volume.ofTable (table : List (List String × FileTree.Node (List UInt8))) (workDir : List Name)
    (distinct : (table.map Prod.fst).Nodup)
    (plain : ∀ path ∈ table.map Prod.fst, Plain (path.getLastD "").toList ∧ '/' ∉ (path.getLastD "").toList) :
    Volume where
  disk := ⟨fun path => table.lookup (path.map String.ofList), workDir, 40⟩
  names := tableNames table
  listed dir name := by
    dsimp only
    rw [mem_tableNames, List.map_append, List.map_singleton, String.ofList_toList, ne_eq,
      List.lookup_eq_none_iff]
    simp only [List.mem_map, not_forall, bne_iff_ne, ne_eq, not_not, exists_prop]
    constructor
    · rintro ⟨entry, member, isPath⟩
      exact ⟨entry, member, isPath.symm⟩
    · rintro ⟨entry, member, isPath⟩
      exact ⟨entry, member, isPath.symm⟩
  distinct dir := by
    refine distinct.filterMap ?_
    intro path other name isName otherName
    rw [Option.mem_def, Option.ite_none_right_eq_some, Option.some.injEq] at isName otherName
    rw [isName.1, otherName.1, isName.2, otherName.2]
  plain dir name member := by
    have whole := plain _ (mem_tableNames.mp member)
    rwa [List.getLastD_concat] at whole

end Table

/-- A pattern that is a star and a suffix, or has no star. -/
def starMatch (pattern name : String) : Option Bool :=
  match pattern.toList with
  | '*' :: suffix => some (suffix.isSuffixOf name.toList)
  | whole => some (decide (whole = name.toList))

/-- A library that reads a volume. -/
def InventoryLib.ofVolume (v : Volume) : InventoryLib where
  queryGet := plainQueryGet
  readDir path := match v.dirAt path with
    | some dir => v.entries dir
    | none => []
  filepathMatch := starMatch
  encodeHelpers resp := .ok (Json.toBytes (helpersText resp ++ ['\n']))
  listDir path := match v.dirAt path with
    | some dir => .ok (v.rootEntries dir)
    | none => .error (.library ("open " ++ path ++ ": no such directory"))
  encodeModels resp := .ok (Json.toBytes (localModelsText resp ++ ['\n']))

theorem InventoryLib.ofVolume_reads (v : Volume) : ReadsVolume (.ofVolume v) v where
  lists path dir isDir := by simp only [ofVolume, isDir]
  refuses path none := by
    simp only [ofVolume, none]
    exact ⟨_, rfl⟩
  files path dir isDir := by simp only [ofVolume, isDir]

/-- Two models, one of them with all its files, and a file next to them. -/
def modelsVolume : Volume :=
  .ofTable [
    (["srv"], .dir),
    (["srv", "models"], .dir),
    (["srv", "models", "smol"], .dir),
    (["srv", "models", "smol", "config.json"], .file []),
    (["srv", "models", "smol", "tokenizer.json"], .file []),
    (["srv", "models", "smol", "w.safetensors"], .file []),
    (["srv", "models", "demo"], .dir),
    (["srv", "models", "notes"], .file []),
    (["srv", "bin"], .dir)] ["srv".toList, "bin".toList] (by decide +kernel) (by decide +kernel)

/-- A request for the first model. -/
def modelsRequest : HttpRequest := ⟨"GET", ⟨"http", "h", "/models/local", "root=../models&limit=1"⟩, [], []⟩

/-- The first model is listed, and has no files. -/
theorem local_models_describe_root_first :
    ∃ resp, handleLocalModels .plain .plain (.ofVolume modelsVolume) modelsRequest =
        writeJSON 200 [] ((InventoryLib.ofVolume modelsVolume).encodeModels resp) ∧
      DescribesRoot .plain (.ofVolume modelsVolume) modelsVolume "../models" ["srv".toList, "models".toList] 1
        resp ∧ GoesUpFirst (components "../models".toList) := by
  have isRoot : inventoryRoot (plainQueryGet modelsRequest.url "root") = "../models" := by decide +kernel
  have whole := (local_models_describe_root .plain .plain (.ofVolume modelsVolume) modelsVolume
    (InventoryLib.ofVolume_reads modelsVolume) modelsRequest rfl).2 1 ["srv".toList, "models".toList]
    (by decide +kernel) (by decide +kernel)
  obtain ⟨resp, answered, describes⟩ := whole
  exact ⟨resp, answered, isRoot ▸ describes, by decide +kernel⟩

end GoExotic
