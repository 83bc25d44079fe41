import CascadeLens.Command.Analyze
import CascadeLens.Proofs.KeyedFold
import CascadeLens.Proofs.PathSpelling

/-! Stylesheets that a page links. A page on disk links files by settled paths, so each is loaded under the name of its
link, and no file is loaded twice, however it is linked, given or found. Links of a page from the web are not resolved,
and names of one file are told apart by their spelling there. -/

namespace CascadeLens.Proofs.LinkedStylesheets
open Text Page Command KeyedFold PathSpelling

/-- As texts spell paths. -/
def Spelt (path : Path) : Prop := path.root = [] ∨ path.root = ['/'] ∨ path.root = ['/', '/']

/-- The entry of a tree that a path leads to from a directory. -/
def entryAt (directory : Path) (tree : FileTree) (path : Path) : Except FileFault (List Text) :=
  tree.walk [] (directory.join path).parts

/-- What is looked at without a page: the stylesheets given, and those of the project. -/
def chosen (world : World Id) (request : AnalyzeRequest) : List Path :=
  request.stylesheets.map (fun name => world.resolve (Path.parse name)) ++
    match request.project with
    | none => []
    | some name => (world.discover (Path.parse name)).run.map world.resolve

/-- Links without empty and `.` parts, of which no two lead to one file, to files that are chosen for no other reason. -/
structure TidilyLinked (world : World Id) (request : AnalyzeRequest) (order : List Text) : Prop where
  spelt : ∀ name ∈ order, ∀ path, (linkedFile world name).run.2 = some path →
    ∀ part ∈ pieces '/' name, part ≠ [] ∧ part ≠ ['.']
  single : ∀ name ∈ order, ∀ other ∈ order, ∀ path path', (linkedFile world name).run.2 = some path →
    (linkedFile world other).run.2 = some path' → world.resolve path = world.resolve path' → path = path'
  apart : ∀ name ∈ order, ∀ path, (linkedFile world name).run.2 = some path → world.resolve path ∉ chosen world request

/-- Every file that is linked is loaded under the name of its link, and no two of the paths loaded are the same file. -/
structure KeepsLinks (directory : Path) (tree : FileTree) (web : Text → Except Web.Trouble Web.Reply)
    (request : AnalyzeRequest) (order : List Text) : Prop where
  named : ∀ name ∈ order, ∀ path, (linkedFile (World.still directory tree web) name).run.2 = some path →
    path ∈ (stylesheetPaths (World.still directory tree web) request order).run.2 ∧
      ∃ source ∈ (loadSources (World.still directory tree web)
          (stylesheetPaths (World.still directory tree web) request order).run.2).run.2,
        ((World.still directory tree web).loadSource path).run = .ok source ∧ source.name = name
  single : (stylesheetPaths (World.still directory tree web) request order).run.2.Pairwise fun path other =>
    ∀ file, entryAt directory tree path = .ok file → entryAt directory tree other ≠ .ok file

/-- A name that is neither that of an inline stylesheet nor an address on the web, of a file on disk. -/
structure OnDisk (world : World Id) (name : Text) (path : Path) : Prop where
  outside : beginsWith name "<style".toList = false
  url : isUrl name = false
  remote : beginsWith name "//".toList = false
  spelt : path = Path.parse name
  file : (world.isFile path).run = true

section Places

variable {directory path : Path} {tree : FileTree} {file : List Text}

theorem parse_spelt (s : Text) : Spelt (Path.parse s) := rootOf_cases s

theorem join_absolute (absolute : path.root ≠ []) (directory : Path) : directory.join path = path := by
  have filled : path.root.isEmpty = false := List.isEmpty_eq_false_iff.mpr absolute
  simp [Path.join, Path.isAbsolute, filled]

theorem join_relative (relative : path.root = []) (directory : Path) :
    directory.join path = ⟨directory.root, directory.parts ++ path.parts⟩ := by
  simp [Path.join, Path.isAbsolute, relative]

theorem normal_root (settled : Settled directory) (spelt : Spelt path) : (directory.join path).normalize.root = ['/'] := by
  rcases spelt with relative | absolute | double
  · rw [join_relative relative, normalize_eq, settled.root]
    rfl
  · rw [join_absolute (by simp [absolute]), normalize_eq, absolute]
    rfl
  · rw [join_absolute (by simp [double]), normalize_eq, double]
    rfl

theorem normal_straight (path : Path) : up ∉ path.normalize.parts := fun upward => (mem_normalize upward).2 rfl

theorem normal_settled (settled : Settled directory) (spelt : Spelt path) (proper : ∀ part ∈ path.parts, Proper part) :
    Settled (directory.join path).normalize := by
  refine ⟨normal_root settled spelt, ?_, normal_straight _⟩
  intro part member
  have origin := (mem_normalize member).1
  by_cases relative : path.root = []
  · rw [join_relative relative] at origin
    exact (List.mem_append.mp origin).elim (settled.proper part) (proper part)
  · rw [join_absolute relative] at origin
    exact proper part origin

/-- A path from the root without `..` parts stays what it is. -/
theorem resolve_resolved (root : path.root = ['/']) (straight : up ∉ path.parts) (directory : Path) :
    (directory.join path).normalize = path := by
  rw [join_absolute (by simp [root]), normalize_straight root straight]

theorem parent_settled (settled : Settled path) : Settled path.parent :=
  ⟨settled.root, fun part member => settled.proper part (List.dropLast_subset _ member),
    fun upward => settled.straight (List.dropLast_subset _ upward)⟩

/-- What stands at the end of a path is told by the resolved path. -/
theorem entry_resolved (settled : Settled directory) (spelt : Spelt path) (arrives : entryAt directory tree path = .ok file) :
    (directory.join path).normalize = ⟨['/'], file⟩ := by
  rw [walk_normal arrives, ← normal_root settled spelt]

end Places

section Commands

variable {directory path : Path} {tree : FileTree} {web : Text → Except Web.Trouble Web.Reply} {world : World Id}
  {request : AnalyzeRequest} {name html : Text} {order : List Text} {base : Option Path} {page : Page} {paths : List Path}
  {source : Source}

theorem mem_namesFrom {count : Nat} {loads : List Load} (member : name ∈ namesFrom count loads) :
    (∃ number, name = inlineName number) ∨ Load.link name ∈ loads := by
  induction loads generalizing count with
  | nil => cases member
  | cons load loads ih =>
    cases load with
    | link address =>
      rcases List.mem_cons.mp member with rfl | later
      · exact .inr List.mem_cons_self
      · exact (ih later).imp_right (List.mem_cons_of_mem _)
    | inline position =>
      rcases List.mem_cons.mp member with rfl | later
      · exact .inl ⟨_, rfl⟩
      · exact (ih later).imp_right (List.mem_cons_of_mem _)

/-- What a page loads is an inline stylesheet or what a link leads to. -/
theorem loaded_cases (member : name ∈ page.loadOrder base) :
    (∃ number, name = inlineName number) ∨ ∃ href, name = resolveHref base href := by
  refine (mem_namesFrom member).imp_right fun linked => ?_
  obtain ⟨⟨element, position⟩, -, load⟩ := List.mem_filterMap.mp linked
  unfold loadOf? at load
  dsimp only at load
  split_ifs at load
  · cases load
  · exact ⟨_, (Load.link.inj (Option.some.inj load)).symm⟩

theorem linkedFile_eq (world : World Id) (name : Text) : (linkedFile world name).run.2 =
    if beginsWith name "<style".toList || (isUrl name || beginsWith name "//".toList) then none
    else if (world.isFile (Path.parse name)).run then some (Path.parse name) else none := by
  unfold linkedFile
  cases inside : beginsWith name "<style".toList with
  | true => rfl
  | false =>
    cases remote : isUrl name || beginsWith name "//".toList with
    | true => rfl
    | false =>
      simp only [Bool.false_eq_true, if_false, Id.run_bind, Bool.or_false]
      split <;> rfl

theorem linked_onDisk (linked : (linkedFile world name).run.2 = some path) : OnDisk world name path := by
  rw [linkedFile_eq] at linked
  split_ifs at linked with skipped file
  simp only [Bool.or_eq_true, not_or, Bool.not_eq_true] at skipped
  obtain rfl := Option.some.inj linked
  exact ⟨skipped.1, skipped.2.1, skipped.2.2, rfl, file⟩

theorem stylesheetPaths_eq (world : World Id) (request : AnalyzeRequest) (order : List Text) :
    (stylesheetPaths world request order).run.2 =
      distinct (order.filterMap (fun name => (linkedFile world name).run.2) ++ chosen world request) := by
  have linked : (order.mapM (linkedFile world)).run.filterMap (·.2) =
      order.filterMap fun name => (linkedFile world name).run.2 := by
    rw [List.idRun_mapM, List.filterMap_map]
    rfl
  rw [← linked, chosen, ← List.append_assoc, stylesheetPaths]
  cases request.project <;> rfl

/-- The stylesheets to look at are those that the page links, and those that are chosen without it. -/
theorem mem_paths : path ∈ (stylesheetPaths world request order).run.2 ↔
    (∃ name ∈ order, (linkedFile world name).run.2 = some path) ∨ path ∈ chosen world request := by
  rw [stylesheetPaths_eq, mem_distinct, List.mem_append, List.mem_filterMap]

theorem mem_sources : source ∈ (loadSources world paths).run.2 ↔ ∃ path ∈ paths, (world.loadSource path).run = .ok source := by
  unfold loadSources
  show source ∈ List.filterMap _ (paths.mapM world.loadSource).run ↔ _
  rw [List.idRun_mapM, List.mem_filterMap]
  constructor
  · rintro ⟨loaded, member, own⟩
    obtain ⟨path, kept, rfl⟩ := List.mem_map.mp member
    refine ⟨path, kept, ?_⟩
    cases read : (world.loadSource path).run <;> rw [read] at own <;> cases own
    rfl
  · rintro ⟨path, member, read⟩
    refine ⟨_, List.mem_map_of_mem member, ?_⟩
    rw [read]

theorem content_of_file (file : tree.kind path = .ok .file) : ∃ content, tree.read path = .ok content := by
  unfold FileTree.kind at file
  unfold FileTree.read
  cases walked : tree.walk [] path.parts with
  | error fault => simp [walked] at file
  | ok parts =>
    rw [walked] at file
    cases held : tree.entries.lookup parts with
    | none =>
      simp only [FileTree.kindAt?, held] at file
      split_ifs at file
      cases file
    | some entry =>
      cases entry with
      | none =>
        simp only [FileTree.kindAt?, held] at file
        cases file
      | some content =>
        refine ⟨content, ?_⟩
        simp only [held]

/-- A stylesheet is loaded under the text of its path. -/
theorem loaded_file (file : ((World.still directory tree web).isFile path).run = true) :
    ∃ source, ((World.still directory tree web).loadSource path).run = .ok source ∧ source.name = path.text := by
  unfold World.isFile at file
  simp only [Id.run_bind, Id.run_pure] at file
  split at file
  next kind =>
    obtain ⟨content, read⟩ := content_of_file kind
    refine ⟨⟨path.text, unifyLineEnds (ofUtf8Lossy content), Dialect.ofPath path⟩, ?_, rfl⟩
    have own : (World.still directory tree web).read ((World.still directory tree web).place path) = .ok content := read
    simp only [World.loadSource, Id.run_bind, Id.run_pure, own]
    rfl
  next => cases file

end Commands

section Runs

variable {directory path : Path} {tree : FileTree} {web : Text → Except Web.Trouble Web.Reply}
  {request : AnalyzeRequest} {name html : Text} {base : Option Path} {page : Page}

/-- What is found under a directory has its root. -/
theorem discovered_root {folder : Path} (found : path ∈ ((World.still directory tree web).discover folder).run) :
    path.root = folder.root := by
  have sorted : path ∈ (((tree.below (directory.join folder)).filter isOwnStylesheet).map folder.join).mergeSort Path.before :=
    found
  rw [List.mem_mergeSort] at sorted
  obtain ⟨below, member, rfl⟩ := List.mem_map.mp sorted
  have relative : below.root = [] := by
    have listed := (List.mem_filter.mp member).1
    unfold FileTree.below at listed
    split at listed
    · cases listed
    · obtain ⟨⟨other, content⟩, -, own⟩ := List.mem_filterMap.mp listed
      dsimp only at own
      split_ifs at own
      rw [← Option.some.inj own]
  rw [join_relative relative]

/-- The stylesheets chosen come from the root without `..` parts. -/
theorem chosen_resolved (settled : Settled directory) (member : path ∈ chosen (World.still directory tree web) request) :
    path.root = ['/'] ∧ up ∉ path.parts := by
  have resolved : ∀ other, Spelt other → path = (World.still directory tree web).resolve other →
      path.root = ['/'] ∧ up ∉ path.parts := by
    rintro other spelt rfl
    exact ⟨normal_root settled spelt, normal_straight _⟩
  rcases List.mem_append.mp member with given | found
  · obtain ⟨name, -, rfl⟩ := List.mem_map.mp given
    exact resolved _ (parse_spelt name) rfl
  · cases project : request.project with
    | none =>
      rw [project] at found
      cases found
    | some name =>
      rw [project] at found
      obtain ⟨other, listed, rfl⟩ := List.mem_map.mp found
      refine resolved other ?_ rfl
      rw [Spelt, discovered_root listed]
      exact parse_spelt name

theorem chosen_fixed (settled : Settled directory) (given : path ∈ chosen (World.still directory tree web) request) :
    (directory.join path).normalize = path := by
  obtain ⟨root, straight⟩ := chosen_resolved settled given
  exact resolve_resolved root straight directory

/-- The links of a page on disk are read from a settled path. -/
theorem base_settled (settled : Settled directory)
    (loaded : (loadPage (World.still directory tree web) request.source).run.2 = .ok ⟨html, base⟩) :
    ∀ folder ∈ base, Settled folder := by
  intro folder known
  by_cases url : isUrl request.source = true
  · simp only [loadPage, url, if_true, Id.run_bind, Id.run_pure] at loaded
    split at loaded
    · cases loaded
    · cases loaded
      cases known
  · simp only [loadPage, url, Bool.false_eq_true, if_false, Id.run_bind, Id.run_pure] at loaded
    split at loaded
    · cases loaded
    · split at loaded
      · cases loaded
      · cases loaded
        obtain rfl := Option.some.inj known
        exact parent_settled (normal_settled settled (parse_spelt _) (parse_proper _))

/-- A page on disk links files by settled paths. -/
theorem linked_settled {folder : Path} (settled : Settled folder) (member : name ∈ page.loadOrder (some folder))
    {world : World Id} (linked : (linkedFile world name).run.2 = some path) : Settled path ∧ path.text = name := by
  obtain ⟨inside, address, remote, rfl, -⟩ := linked_onDisk linked
  rcases loaded_cases member with ⟨number, rfl⟩ | ⟨href, rfl⟩
  · cases inside
  · unfold resolveHref at address remote ⊢
    dsimp only at address remote ⊢
    split_ifs at address remote ⊢ with web
    · rw [address, remote] at web
      cases web
    · have own : Settled (folder.join (Path.parse ((cut '?' (cut '#' (trim href)).1).1.dropWhile (· == '/')))).normalize :=
        normal_settled settled (parse_spelt _) (parse_proper _)
      rw [path_of_text own]
      exact ⟨own, rfl⟩

/-- Links without detours are tidy, if none of their files is chosen. -/
theorem tidy_of_straight (settled : Settled directory) {order : List Text}
    (straight : ∀ name ∈ order, (linkedFile (World.still directory tree web) name).run.2.isSome = true →
      ∀ part ∈ pieces '/' name, (part ≠ [] ∧ part ≠ ['.']) ∧ part ≠ up)
    (apart : ∀ name ∈ order, (World.still directory tree web).resolve (Path.parse name) ∉
      chosen (World.still directory tree web) request) : TidilyLinked (World.still directory tree web) request order := by
  have own : ∀ {name path}, name ∈ order → (linkedFile (World.still directory tree web) name).run.2 = some path →
      ∀ part ∈ pieces '/' name, (part ≠ [] ∧ part ≠ ['.']) ∧ part ≠ up :=
    fun listed linked => straight _ listed (by rw [linked]; rfl)
  have resolved : ∀ {name path}, name ∈ order → (linkedFile (World.still directory tree web) name).run.2 = some path →
      path.root = [] ∧ (World.still directory tree web).resolve path = ⟨['/'], directory.parts ++ path.parts⟩ := by
    intro name path listed linked
    obtain rfl := (linked_onDisk linked).spelt
    have relative := (text_parse fun part member => (own listed linked part member).1).2
    refine ⟨relative, ?_⟩
    show (directory.join (Path.parse name)).normalize = _
    rw [join_relative relative, settled.root]
    refine normalize_straight rfl fun upward => ?_
    rcases List.mem_append.mp upward with above | below
    · exact settled.straight above
    · exact (own listed linked up (List.mem_filter.mp below).1).2 rfl
  refine ⟨fun name listed path linked part member => (own listed linked part member).1, ?_, ?_⟩
  · intro name listed other listed' path path' linked linked' same
    obtain ⟨root, here⟩ := resolved listed linked
    obtain ⟨root', here'⟩ := resolved listed' linked'
    rw [here, here', Path.mk.injEq] at same
    have parts := List.append_cancel_left same.2
    calc
      path = ⟨path.root, path.parts⟩ := rfl
      _ = path' := by rw [root, parts, ← root']
  · intro name listed path linked
    obtain rfl := (linked_onDisk linked).spelt
    exact apart name listed

theorem paths_spelt (settled : Settled directory) {order : List Text}
    (member : path ∈ (stylesheetPaths (World.still directory tree web) request order).run.2) : Spelt path := by
  rcases mem_paths.mp member with ⟨name, -, linked⟩ | given
  · obtain rfl := (linked_onDisk linked).spelt
    exact parse_spelt name
  · exact .inr (.inl (chosen_resolved settled given).1)

/-- Resolving tells the paths to look at apart, if the links of a page from the web are tidy. -/
theorem resolve_apart (settled : Settled directory)
    (loaded : (loadPage (World.still directory tree web) request.source).run.2 = .ok ⟨html, base⟩)
    (tidy : base = none → TidilyLinked (World.still directory tree web) request (page.loadOrder base)) {other : Path}
    (member : path ∈ (stylesheetPaths (World.still directory tree web) request (page.loadOrder base)).run.2)
    (member' : other ∈ (stylesheetPaths (World.still directory tree web) request (page.loadOrder base)).run.2)
    (same : (directory.join path).normalize = (directory.join other).normalize) : path = other := by
  cases base with
  | some folder =>
    have resolved : ∀ path ∈ (stylesheetPaths (World.still directory tree web) request (page.loadOrder (some folder))).run.2,
        (directory.join path).normalize = path := by
      intro path member
      rcases mem_paths.mp member with ⟨name, listed, linked⟩ | given
      · have own := (linked_settled (base_settled settled loaded folder rfl) listed linked).1
        exact resolve_resolved own.root own.straight directory
      · exact chosen_fixed settled given
    rw [resolved path member, resolved other member'] at same
    exact same
  | none =>
    obtain ⟨-, single, apart⟩ := tidy rfl
    have outside : ∀ {name path other}, name ∈ page.loadOrder none →
        (linkedFile (World.still directory tree web) name).run.2 = some path →
          other ∈ chosen (World.still directory tree web) request →
            (directory.join path).normalize ≠ (directory.join other).normalize := by
      intro name path other listed linked given same
      refine apart name listed path linked ?_
      show (directory.join path).normalize ∈ _
      rwa [same, chosen_fixed settled given]
    rcases mem_paths.mp member with ⟨name, listed, linked⟩ | given <;>
      rcases mem_paths.mp member' with ⟨name', listed', linked'⟩ | given'
    · exact single name listed name' listed' path other linked linked' same
    · exact absurd same (outside listed linked given')
    · exact absurd same.symm (outside listed' linked' given)
    · rw [chosen_fixed settled given, chosen_fixed settled given'] at same
      exact same

/-- Every stylesheet on disk that a page links is loaded under the name of its link, and no file is loaded twice, whatever
is given and found besides. Of a page from the web the links have to be tidy for it. -/
theorem linked_under_own_name (settled : Settled directory)
    (loaded : (loadPage (World.still directory tree web) request.source).run.2 = .ok ⟨html, base⟩)
    (tidy : base = none → TidilyLinked (World.still directory tree web) request (page.loadOrder base)) :
    KeepsLinks directory tree web request (page.loadOrder base) := by
  constructor
  · intro name listed path linked
    have member : path ∈ (stylesheetPaths (World.still directory tree web) request (page.loadOrder base)).run.2 :=
      mem_paths.mpr (.inl ⟨name, listed, linked⟩)
    obtain ⟨source, read, own⟩ := loaded_file (linked_onDisk linked).file
    have text : path.text = name := by
      cases known : base with
      | some folder =>
        rw [known] at listed
        exact (linked_settled (base_settled settled loaded folder known) listed linked).2
      | none =>
        have parts := (tidy known).spelt name listed path linked
        rw [(linked_onDisk linked).spelt]
        exact (text_parse parts).1
    exact ⟨member, source, mem_sources.mpr ⟨path, member, read⟩, read, own.trans text⟩
  · have distinct : (stylesheetPaths (World.still directory tree web) request (page.loadOrder base)).run.2.Nodup := by
      rw [stylesheetPaths_eq]
      exact nodup_distinct _
    refine distinct.imp_of_mem ?_
    intro path other member member' apart file arrives arrives'
    have same := (entry_resolved settled (paths_spelt settled member) arrives).trans
      (entry_resolved settled (paths_spelt settled member') arrives').symm
    exact apart (resolve_apart settled loaded tidy member member' same)

def bytesOf (s : Text) : List UInt8 := s.map fun c => c.toNat.toUInt8

def shop : Path := ⟨['/'], ["shop".toList]⟩

/-- A page and a stylesheet in a directory. -/
def shopTree (html : Text) : FileTree where
  entries := [(["shop".toList, "index.html".toList], some (bytesOf html)),
    (["shop".toList, "menu.css".toList], some (bytesOf ".menu\x7b\x7d".toList))]

/-- The same page wherever it is asked for. -/
def shopWeb (html : Text) (_ : Text) : Except Web.Trouble Web.Reply := .ok { body := bytesOf html }

def menuPage : Text := "<style></style><link rel=stylesheet href=menu.css?2>".toList

/-- What is linked by a page on disk may also be given and found, under other names. -/
def diskRequest : AnalyzeRequest where
  source := "./index.html".toList
  stylesheets := ["./menu.css".toList]
  project := some "../shop".toList

def webRequest : AnalyzeRequest where
  source := "http://shop.test/".toList

theorem menu_is_loaded_once : ∃ page : Page, Page.parse? menuPage = some page ∧
    page.loadOrder (some shop) = ["<style #1>".toList, "/shop/menu.css".toList] ∧
    KeepsLinks shop (shopTree menuPage) (shopWeb menuPage) diskRequest (page.loadOrder (some shop)) ∧
    page.loadOrder none = ["<style #1>".toList, "menu.css".toList] ∧
    KeepsLinks shop (shopTree menuPage) (shopWeb menuPage) webRequest (page.loadOrder none) := by
  have settled : Settled shop := by
    refine ⟨rfl, fun part member => ?_, by decide +kernel⟩
    obtain rfl := List.mem_singleton.mp member
    exact ⟨by decide +kernel, by decide +kernel, by decide +kernel⟩
  have orders : (Page.parse? menuPage).map (fun page => (page.loadOrder (some shop), page.loadOrder none)) =
      some (["<style #1>".toList, "/shop/menu.css".toList], ["<style #1>".toList, "menu.css".toList]) := by decide +kernel
  obtain ⟨page, parsed, both⟩ := Option.map_eq_some_iff.mp orders
  obtain ⟨disk, net⟩ := Prod.mk.inj both
  have onDisk : (loadPage (World.still shop (shopTree menuPage) (shopWeb menuPage)) diskRequest.source).run.2 =
      .ok ⟨menuPage, some shop⟩ := by rfl
  have onWeb : (loadPage (World.still shop (shopTree menuPage) (shopWeb menuPage)) webRequest.source).run.2 =
      .ok ⟨menuPage, none⟩ := by rfl
  have tidy : TidilyLinked (World.still shop (shopTree menuPage) (shopWeb menuPage)) webRequest (page.loadOrder none) := by
    rw [net]
    exact tidy_of_straight settled (by decide +kernel) (by decide +kernel)
  exact ⟨page, parsed, disk, linked_under_own_name settled onDisk nofun, net, linked_under_own_name settled onWeb fun _ => tidy⟩

def dottedPage : Text := "<link rel=stylesheet href=./menu.css>".toList

/-- A page from the web links a file that is loaded under a name that no link has. -/
theorem dotted_link_loses_name : ∃ page : Page, Page.parse? dottedPage = some page ∧
    (loadPage (World.still shop (shopTree dottedPage) (shopWeb dottedPage)) webRequest.source).run.2 = .ok ⟨dottedPage, none⟩ ∧
    page.loadOrder none = ["./menu.css".toList] ∧
    (linkedFile (World.still shop (shopTree dottedPage) (shopWeb dottedPage)) "./menu.css".toList).run.2.isSome = true ∧
    (loadSources (World.still shop (shopTree dottedPage) (shopWeb dottedPage))
      (stylesheetPaths (World.still shop (shopTree dottedPage) (shopWeb dottedPage)) webRequest
        (page.loadOrder none)).run.2).run.2.map (·.name) = ["menu.css".toList] ∧
    "menu.css".toList ∉ page.loadOrder none := by
  have order : (Page.parse? dottedPage).map (fun page => page.loadOrder none) = some ["./menu.css".toList] := by
    decide +kernel
  obtain ⟨page, parsed, own⟩ := Option.map_eq_some_iff.mp order
  refine ⟨page, parsed, by rfl, own, by decide +kernel, ?_, ?_⟩ <;> rw [own] <;> decide +kernel

end Runs

end CascadeLens.Proofs.LinkedStylesheets
