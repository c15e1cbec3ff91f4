import Mathlib.Data.Bool.AllAny
import Mathlib.Tactic.Common
import InterceptingProxy.Server
import InterceptingProxy.Proofs.FileTree
import InterceptingProxy.Proofs.Text.Utf8

set_option autoImplicit false

/-! # The first pair of certificate and key

A directory may hold any entries, in any order and with any bytes for names. What counts is which
prefixes have both of their files in it (`HasPair`). `detectPair` finds the pair whose key comes
first in the order of names and fails only if there is none (`detectPair_eq_none_iff`,
`detectPair_eq_some_iff`), so it does not depend on anything else (`detectPair_congr`). The scan
goes by the bytes of names and the statement by prefixes, which are texts; the two meet in
`pairOfKey_eq_some_iff`. The paths that come of it lead to the two files
(`find_of_detectKeyPair`). A server that is started without a certificate or without a key searches
the working directory, and that never fails (`keyPairPaths_from_working_directory`). -/

namespace InterceptingProxy

/-! ## Pairs -/

/-- The name of the key file with a prefix. -/
def keyName (p : Text) : Text := p ++ "-key.pem".toList

/-- The name of the certificate file with a prefix. -/
def certificateName (p : Text) : Text := p ++ ".pem".toList

/-- The key and the certificate with this prefix are there. -/
def HasPair (there : Text → Prop) (p : Text) : Prop := there (keyName p) ∧ there (certificateName p)

/-- The pair with this prefix is there, and no other key that has its certificate comes before. -/
structure FirstPair (there : Text → Prop) (p : Text) : Prop where
  pair : HasPair there p
  first : ∀ q, HasPair there q → (keyName p).utf8 ≤ (keyName q).utf8

/-- A directory has a regular file of this name. -/
def HasFile (directory : List DirEntry) (name : Text) : Prop :=
  ∃ entry ∈ directory, entry.isFile = true ∧ entry.name = name.utf8

/-- A tree has a regular file of this name in one of its directories. -/
def FileTree.HasFile (files : FileTree) (directory : List Text) (name : Text) : Prop :=
  ∃ content, (directory ++ [name], FileNode.file content) ∈ files.nodes

theorem keyName_injective : Function.Injective keyName :=
  fun _ _ h => (List.append_inj_left' h rfl)

theorem FirstPair.unique {there : Text → Prop} {p q : Text} (hp : FirstPair there p)
    (hq : FirstPair there q) : p = q := by
  have hbytes : (keyName p).utf8 = (keyName q).utf8 :=
    List.le_antisymm (hp.first q hq.pair) (hq.first p hp.pair)
  exact keyName_injective (Text.utf8_injective hbytes)

/-! ## Names of files -/

theorem utf8_keyName (p : Text) : (keyName p).utf8 = p.utf8 ++ keySuffix := by
  rw [keyName, Text.utf8_append]
  rfl

theorem utf8_certificateName (p : Text) :
    (certificateName p).utf8 = p.utf8 ++ certificateSuffix := by
  rw [certificateName, Text.utf8_append]
  rfl

theorem utf8_mem_fileNames_iff {directory : List DirEntry} {name : Text} :
    name.utf8 ∈ fileNames directory ↔ HasFile directory name := by
  simp only [fileNames, List.mem_mergeSort, List.mem_map, List.mem_filter, HasFile, and_assoc]

theorem fileNames_sorted (directory : List DirEntry) :
    (fileNames directory).Pairwise (· ≤ ·) := by
  have hsorted : (fileNames directory).Pairwise fun a b => decide (a ≤ b) = true := by
    apply List.pairwise_mergeSort
    · intro a b c hab hbc
      exact decide_eq_true (List.le_trans (of_decide_eq_true hab) (of_decide_eq_true hbc))
    · intro a b
      simpa using List.le_total a b
  exact hsorted.imp of_decide_eq_true

/-- The end of a key's name is cut off its bytes, and what is left are those of a prefix. -/
theorem pairOfKey_eq_some_iff {files : List Bytes} {key : Bytes} {found : Text × Text} :
    pairOfKey files key = some found ↔
      ∃ p, key = (keyName p).utf8 ∧ (certificateName p).utf8 ∈ files ∧
        found = (certificateName p, keyName p) := by
  simp only [pairOfKey, Option.bind_eq_bind, Option.bind_eq_some_iff, Utf8.decode?_eq_some_iff,
    stripSuffix_eq_some_iff]
  constructor
  · rintro ⟨name, rfl, start, hstart, hfound⟩
    have hascii : ∀ c ∈ "-key.pem".toList, c.toNat < 0x80 :=
      List.all_iff_forall_prop.1 (by decide)
    obtain ⟨p, rfl, rfl⟩ := Text.exists_of_utf8_eq_append hascii hstart
    rw [← utf8_certificateName] at hfound
    split at hfound
    · next hcertificate =>
        rw [Utf8.decode?_eq_some_iff.2 rfl] at hfound
        exact ⟨p, rfl, List.contains_iff_mem.1 hcertificate, (Option.some.inj hfound).symm⟩
    · cases hfound
  · rintro ⟨p, rfl, hcertificate, rfl⟩
    refine ⟨keyName p, rfl, p.utf8, utf8_keyName p, ?_⟩
    rw [← utf8_certificateName, if_pos (List.contains_iff_mem.2 hcertificate),
      Utf8.decode?_eq_some_iff.2 rfl]
    rfl

/-! ## The scan -/

section Scan

variable {directory directory' : List DirEntry}

theorem detectPair_eq_none_iff :
    detectPair directory = none ↔ ∀ p, ¬ HasPair (HasFile directory) p := by
  rw [detectPair, List.findSome?_eq_none_iff]
  constructor
  · rintro hnone p ⟨hkey, hcertificate⟩
    have hfound := pairOfKey_eq_some_iff.2 ⟨p, rfl, utf8_mem_fileNames_iff.2 hcertificate, rfl⟩
    rw [hnone _ (utf8_mem_fileNames_iff.2 hkey)] at hfound
    cases hfound
  · intro hnone key hkey
    rw [Option.eq_none_iff_forall_ne_some]
    rintro found hfound
    obtain ⟨p, rfl, hcertificate, -⟩ := pairOfKey_eq_some_iff.1 hfound
    exact hnone p ⟨utf8_mem_fileNames_iff.1 hkey, utf8_mem_fileNames_iff.1 hcertificate⟩

/-- What the scan finds is the first pair, as the names are in order. -/
theorem exists_firstPair_of_detectPair {found : Text × Text}
    (h : detectPair directory = some found) :
    ∃ p, FirstPair (HasFile directory) p ∧ found = (certificateName p, keyName p) := by
  obtain ⟨before, key, after, hfiles, hfound, hbefore⟩ := List.findSome?_eq_some_iff.1 h
  obtain ⟨p, rfl, hcertificate, rfl⟩ := pairOfKey_eq_some_iff.1 hfound
  have hkey : (keyName p).utf8 ∈ fileNames directory := by
    rw [hfiles]
    exact List.mem_append_right _ List.mem_cons_self
  refine ⟨p, ⟨⟨utf8_mem_fileNames_iff.1 hkey, utf8_mem_fileNames_iff.1 hcertificate⟩, ?_⟩, rfl⟩
  rintro q ⟨hkey', hcertificate'⟩
  have hfound' := pairOfKey_eq_some_iff.2 ⟨q, rfl, utf8_mem_fileNames_iff.2 hcertificate', rfl⟩
  have hsorted := fileNames_sorted directory
  rw [← utf8_mem_fileNames_iff, hfiles] at hkey'
  rw [hfiles, List.pairwise_append, List.pairwise_cons] at hsorted
  rcases List.mem_append.1 hkey' with hearlier | hlater
  · rw [hbefore _ hearlier] at hfound'
    cases hfound'
  · rcases List.mem_cons.1 hlater with hsame | hlater
    · exact hsame ▸ List.le_refl _
    · exact hsorted.2.1.1 _ hlater

theorem detectPair_eq_some_iff {found : Text × Text} :
    detectPair directory = some found ↔
      ∃ p, FirstPair (HasFile directory) p ∧ found = (certificateName p, keyName p) := by
  refine ⟨exists_firstPair_of_detectPair, ?_⟩
  rintro ⟨p, hfirst, rfl⟩
  cases hdetect : detectPair directory with
  | none => exact absurd hfirst.pair (detectPair_eq_none_iff.1 hdetect p)
  | some found =>
      obtain ⟨q, hfirst', rfl⟩ := exists_firstPair_of_detectPair hdetect
      rw [hfirst.unique hfirst']

/-- Only the pairs count. -/
theorem detectPair_congr (h : ∀ p, HasPair (HasFile directory) p ↔ HasPair (HasFile directory') p) :
    detectPair directory = detectPair directory' := by
  have hfirst : ∀ p, FirstPair (HasFile directory) p ↔ FirstPair (HasFile directory') p := by
    intro p
    constructor
    · rintro ⟨hpair, hleast⟩
      exact ⟨(h p).1 hpair, fun q hq => hleast q ((h q).2 hq)⟩
    · rintro ⟨hpair, hleast⟩
      exact ⟨(h p).2 hpair, fun q hq => hleast q ((h q).1 hq)⟩
  refine Option.ext fun found => ?_
  rw [detectPair_eq_some_iff, detectPair_eq_some_iff]
  exact exists_congr fun p => and_congr_left' (hfirst p)

theorem hasFile_congr_of_perm (h : directory.Perm directory') (name : Text) :
    HasFile directory name ↔ HasFile directory' name :=
  exists_congr fun _ => and_congr_left' h.mem_iff

theorem hasFile_filter_isFile (name : Text) :
    HasFile (directory.filter (·.isFile)) name ↔ HasFile directory name := by
  simp only [HasFile, List.mem_filter, and_assoc, and_self_left]

end Scan

/-! ## Directories of a tree -/

section Tree

variable {files : FileTree} {path : Text} {directory : List Text}

theorem mem_nodes_of_file {names : List Text} {content : Bytes}
    (h : (names, FileNode.file content) ∈ files.rootDirectories ++ files.nodes) :
    (names, FileNode.file content) ∈ files.nodes := by
  refine (List.mem_append.1 h).resolve_left fun hroot => ?_
  obtain ⟨k, -, hdirectory⟩ := List.mem_map.1 hroot
  cases hdirectory

/-- The listing of a directory has the files that the tree has there. -/
theorem exists_listing (h : files.find path = .ok (directory, .directory)) :
    ∃ listing, files.list path = .ok listing ∧
      HasFile listing = files.HasFile directory := by
  refine ⟨_, by rw [FileTree.list, h]; rfl, funext fun name => propext ?_⟩
  simp only [HasFile, FileTree.HasFile, List.mem_filterMap]
  constructor
  · rintro ⟨entry, ⟨⟨names, node⟩, hnode, hentry⟩, hfile, hname⟩
    split at hentry
    · next hinside =>
        obtain ⟨last, hlast, rfl⟩ := Option.map_eq_some_iff.1 hentry
        obtain rfl := Text.utf8_injective hname
        have hnames : directory ++ [last] = names := by
          rw [← hinside.1]
          exact List.dropLast_append_getLast? last hlast
        cases node with
        | file content => exact ⟨content, hnames ▸ mem_nodes_of_file hnode⟩
        | directory => cases hfile
    · cases hentry
  · rintro ⟨content, hnode⟩
    refine ⟨⟨name.utf8, true⟩, ⟨(directory ++ [name], .file content), List.mem_append_right _ hnode,
      ?_⟩, rfl, rfl⟩
    simp

theorem detectKeyPair_of_list {listing : List DirEntry} (h : files.list path = .ok listing) :
    detectKeyPair files path = .ok ((detectPair listing).map fun (certificate, key) =>
      (FileTree.join path certificate, FileTree.join path key)) := by
  rw [detectKeyPair, h]
  rfl

theorem exists_detectKeyPair (h : files.find path = .ok (directory, .directory)) :
    ∃ found, detectKeyPair files path = .ok found := by
  obtain ⟨listing, hlist, -⟩ := exists_listing h
  exact ⟨_, detectKeyPair_of_list hlist⟩

theorem detectKeyPair_eq_none_iff (h : files.find path = .ok (directory, .directory)) :
    detectKeyPair files path = .ok none ↔ ∀ p, ¬ HasPair (files.HasFile directory) p := by
  obtain ⟨listing, hlist, hfiles⟩ := exists_listing h
  rw [detectKeyPair_of_list hlist, Except.ok.injEq, Option.map_eq_none_iff, ← hfiles,
    detectPair_eq_none_iff]

theorem detectKeyPair_eq_some_iff (h : files.find path = .ok (directory, .directory))
    {certificate key : Text} :
    detectKeyPair files path = .ok (some (certificate, key)) ↔
      ∃ p, FirstPair (files.HasFile directory) p ∧
        certificate = FileTree.join path (certificateName p) ∧
        key = FileTree.join path (keyName p) := by
  obtain ⟨listing, hlist, hfiles⟩ := exists_listing h
  rw [detectKeyPair_of_list hlist, Except.ok.injEq, Option.map_eq_some_iff, ← hfiles]
  constructor
  · rintro ⟨found, hdetect, hpaths⟩
    obtain ⟨p, hfirst, rfl⟩ := detectPair_eq_some_iff.1 hdetect
    obtain ⟨rfl, rfl⟩ := Prod.mk.inj hpaths
    exact ⟨p, hfirst, rfl, rfl⟩
  · rintro ⟨p, hfirst, rfl, rfl⟩
    exact ⟨_, detectPair_eq_some_iff.2 ⟨p, hfirst, rfl⟩, rfl⟩

/-- The paths that are detected lead to the files. -/
theorem find_of_detectKeyPair (hsound : files.Sound) (habsolute : files.root.head? = some '/')
    (h : files.find path = .ok (directory, .directory)) {certificate key : Text}
    (hdetect : detectKeyPair files path = .ok (some (certificate, key))) :
    ∃ p chain secret,
      files.find certificate = .ok (directory ++ [certificateName p], .file chain) ∧
      files.find key = .ok (directory ++ [keyName p], .file secret) := by
  obtain ⟨p, ⟨⟨⟨secret, hkey⟩, ⟨chain, hcertificate⟩⟩, -⟩, rfl, rfl⟩ :=
    (detectKeyPair_eq_some_iff h).1 hdetect
  refine ⟨p, chain, secret, hsound.find_join habsolute h ?_ hcertificate,
    hsound.find_join habsolute h ?_ hkey⟩
  · simp [certificateName]
  · simp [keyName]

theorem keyPairPaths_of_missing {D I E : Type} {config : ServerConfig D I E}
    (hmissing : config.certificate = none ∨ config.key = none) {found : Option (Text × Text)}
    (hfound : detectKeyPair files files.root = .ok found) :
    Server.keyPairPaths config files =
      .ok (found,
        if found.isSome then [.info "Detected certificate in working directory"] else []) := by
  rw [Server.keyPairPaths]
  split
  · next hcertificate hkey => simp [hcertificate, hkey] at hmissing
  · rw [hfound]
    cases found <;> rfl

/-- Without a certificate or without a key, the first pair of the working directory is used. -/
theorem keyPairPaths_from_working_directory {D I E : Type} {config : ServerConfig D I E}
    (hmissing : config.certificate = none ∨ config.key = none) (hroot : files.root ≠ [])
    (hplain : FileTree.IsPlain files.root) :
    (Server.keyPairPaths config files = .ok (none, []) ∧
      ∀ p, ¬ HasPair (files.HasFile files.rootNames) p) ∨
    ∃ p, FirstPair (files.HasFile files.rootNames) p ∧
      Server.keyPairPaths config files =
        .ok (some (FileTree.join files.root (certificateName p),
            FileTree.join files.root (keyName p)),
          [.info "Detected certificate in working directory"]) := by
  have hfind := FileTree.find_root hroot hplain
  obtain ⟨found, hfound⟩ := exists_detectKeyPair hfind
  have hpaths := keyPairPaths_of_missing hmissing hfound
  cases found with
  | none => exact .inl ⟨hpaths, (detectKeyPair_eq_none_iff hfind).1 hfound⟩
  | some pair =>
      obtain ⟨p, hfirst, hcertificate, hkey⟩ := (detectKeyPair_eq_some_iff hfind).1 hfound
      refine .inr ⟨p, hfirst, ?_⟩
      rw [← hcertificate, ← hkey]
      exact hpaths

end Tree

/-- **The first pair is detected, whatever else is in the directory.** Nothing is found only if no
    prefix has both of its files, and else the pair whose key comes first in the order of the bytes
    of names. Neither the order of the listing counts, nor directories, nor any other entry that
    completes no pair. In a tree the paths lead into the directory that was searched. -/
theorem first_pair_is_detected :
    (∀ directory, detectPair directory = none ↔ ∀ p, ¬ HasPair (HasFile directory) p) ∧
    (∀ directory certificate key, detectPair directory = some (certificate, key) ↔
      ∃ p, FirstPair (HasFile directory) p ∧
        certificate = certificateName p ∧ key = keyName p) ∧
    (∀ directory directory', directory.Perm directory' →
      detectPair directory = detectPair directory') ∧
    (∀ directory, detectPair (directory.filter (·.isFile)) = detectPair directory) ∧
    (∀ directory directory',
      (∀ p, HasPair (HasFile directory) p ↔ HasPair (HasFile directory') p) →
      detectPair directory = detectPair directory') ∧
    ∀ files path directory, FileTree.find files path = .ok (directory, .directory) →
      (detectKeyPair files path = .ok none ↔ ∀ p, ¬ HasPair (files.HasFile directory) p) ∧
      ∀ certificate key, detectKeyPair files path = .ok (some (certificate, key)) ↔
        ∃ p, FirstPair (files.HasFile directory) p ∧
          certificate = FileTree.join path (certificateName p) ∧
          key = FileTree.join path (keyName p) := by
  refine ⟨fun directory => detectPair_eq_none_iff, fun directory certificate key => ?_,
    fun directory directory' hperm => ?_, fun directory => ?_,
    fun directory directory' hpairs => detectPair_congr hpairs,
    fun files path directory hfind =>
      ⟨detectKeyPair_eq_none_iff hfind, fun certificate key => detectKeyPair_eq_some_iff hfind⟩⟩
  · simp only [detectPair_eq_some_iff, Prod.mk.injEq]
  · exact detectPair_congr fun p =>
      and_congr (hasFile_congr_of_perm hperm _) (hasFile_congr_of_perm hperm _)
  · exact detectPair_congr fun p =>
      and_congr (hasFile_filter_isFile _) (hasFile_filter_isFile _)

/-- A plus comes before a hyphen, so the pair `a+1` is found and not the pair `a`. The pair `0`
    would be the first one, but it is made of directories. -/
theorem first_pair_is_detected_in_any_order :
    let listing : List DirEntry :=
      [⟨ascii "a.pem", true⟩, ⟨ascii "a-key.pem", true⟩, ⟨ascii "0-key.pem", false⟩,
        ⟨ascii "a+1.pem", true⟩, ⟨ascii "0.pem", false⟩, ⟨ascii "a+1-key.pem", true⟩]
    let files : FileTree :=
      { root := "/home".toList
        nodes := [(["home".toList, "b.pem".toList], .file []),
          (["home".toList, "b-key.pem".toList], .file [])] }
    listing.Perm listing.reverse ∧ detectPair listing = detectPair listing.reverse ∧
      (∀ p, HasPair (HasFile listing) p ↔ HasPair (HasFile (listing.filter (·.isFile))) p) ∧
      detectPair listing = detectPair (listing.filter (·.isFile)) ∧
      detectPair listing = some ("a+1.pem".toList, "a+1-key.pem".toList) ∧
      files.find "/home".toList = .ok (["home".toList], .directory) ∧
      detectKeyPair files "/home".toList =
        .ok (some ("/home/b.pem".toList, "/home/b-key.pem".toList)) := by
  intro listing files
  obtain ⟨-, hsome, hperm, -, hcongr, htree⟩ := first_pair_is_detected
  have hreverse : listing.Perm listing.reverse := (List.reverse_perm listing).symm
  have hpairs : ∀ p,
      HasPair (HasFile listing) p ↔ HasPair (HasFile (listing.filter (·.isFile))) p :=
    fun p => and_congr (hasFile_filter_isFile _).symm (hasFile_filter_isFile _).symm
  have hfirst : FirstPair (HasFile listing) "a+1".toList := by
    refine ⟨⟨⟨⟨ascii "a+1-key.pem", true⟩, by decide, rfl, rfl⟩,
      ⟨⟨ascii "a+1.pem", true⟩, by decide, rfl, rfl⟩⟩, ?_⟩
    rintro q ⟨⟨entry, hentry, hfile, hname⟩, -⟩
    have hleast : ∀ entry ∈ listing, entry.isFile = true →
        (keyName "a+1".toList).utf8 ≤ entry.name := by decide
    exact hname ▸ hleast entry hentry hfile
  have hfind : files.find "/home".toList = .ok (["home".toList], .directory) := rfl
  have hfirst' : FirstPair (files.HasFile ["home".toList]) "b".toList := by
    refine ⟨⟨⟨[], by decide⟩, ⟨[], by decide⟩⟩, ?_⟩
    rintro q ⟨⟨content, hnode⟩, -⟩
    have hleast : ∀ node ∈ files.nodes, ∀ name ∈ node.1.tail,
        (keyName "b".toList).utf8 ≤ Text.utf8 name := by decide
    exact hleast _ hnode _ (List.mem_singleton_self _)
  exact ⟨hreverse, hperm _ _ hreverse, hpairs, hcongr _ _ hpairs,
    (hsome listing _ _).2 ⟨_, hfirst, rfl, rfl⟩, hfind,
    ((htree files _ _ hfind).2 _ _).2 ⟨_, hfirst', rfl, rfl⟩⟩

end InterceptingProxy
