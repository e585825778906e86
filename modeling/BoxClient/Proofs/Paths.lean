import BoxClient.Proofs.Operation
/-!
The paths of a base. Its name is the first segment of both, and decoding that segment gives the name
back; the path for counting has a second segment and the other has none. So no two bases share a
path, whatever their names are, and no request for boxes is taken for a request to count.
-/
namespace BoxClient.Session

open Http

variable {α : Type}

/-- The path of the base that an operation goes to. A free message has a path of its own. -/
def pathOf? (s : Session α) : Operation → Option String
  | .get _ | .store _ | .sendQuery _ | .query _ => some s.path
  | .count _ => some s.countPath
  | .send .. => none

section
variable {s : Session α} {op : Operation} {path : String}

theorem isToken_of_pathOf? (h : s.pathOf? op = some path) : Request.IsToken path := by
  cases op with
  | send method path body => cases h
  | count queries =>
    cases h
    exact s.isToken_countPath
  | _ =>
    cases h
    exact s.isToken_path

theorem path_of_message {m : Message} (h : s.pathOf? op = some path) (hm : s.message op = .ok m) :
    m.path = path := by
  cases op with
  | send method path body => cases h
  | _ =>
    cases h
    obtain ⟨_, -, he⟩ := Outcome.bind_eq_ok.mp hm
    cases he
    rfl

end

/-- A request to a path that is a token is accepted or not for its method and its headers. -/
theorem encode_of_isToken {r : Request} (h : Request.IsToken r.path) :
    (∃ bs, r.encode = .ok bs) ↔
      Request.IsToken r.method ∧ ∀ header ∈ r.headers, Request.IsHeaderField header := by
  constructor
  · rintro ⟨bs, hencode⟩
    obtain ⟨⟨hmethod, -, hheaders⟩, -⟩ := Request.encode_eq_ok_iff.mp hencode
    exact ⟨hmethod, hheaders⟩
  · rintro ⟨hmethod, hheaders⟩
    exact ⟨r.bytes, Request.encode_eq_ok_iff.mpr ⟨⟨hmethod, h, hheaders⟩, rfl⟩⟩

section
variable (s s' : Session α)

theorem toList_path : s.path.toList = '/' :: (Percent.encode s.options.base).toList := by
  rw [path, String.toList_append]
  rfl

/-- A slash in the base is encoded, so the one in front of it is the only one. -/
theorem count_slash_path : s.path.toList.count '/' = 1 := by
  have hsegment := (Percent.isSegment_encode s.options.base).slash_notMem
  rw [toList_path, List.count_cons_self, List.count_eq_zero.mpr hsegment]

theorem count_slash_countPath : s.countPath.toList.count '/' = 2 := by
  have hsuffix : "/count".toList.count '/' = 1 := by decide
  rw [countPath, String.toList_append, List.count_append, count_slash_path, hsuffix]

/-- Whatever the bases are, the numbers of slashes differ. -/
theorem path_ne_countPath : s.path ≠ s'.countPath := by
  intro h
  -- An encoded base holds no slash, so the slashes of a path are those put around it.
  have hcount := congrArg (fun path => path.toList.count '/') h
  simp only [count_slash_path, count_slash_countPath] at hcount
  omega

variable {s s'}

/-- Nothing is lost in encoding the base. -/
theorem base_of_path (h : s.path = s'.path) : s.options.base = s'.options.base := by
  have hlist := congrArg String.toList h
  rw [toList_path, toList_path, List.cons.injEq] at hlist
  exact Percent.encode_injective (String.toList_inj.mp hlist.2)

theorem base_of_countPath (h : s.countPath = s'.countPath) : s.options.base = s'.options.base := by
  have hlist := congrArg String.toList h
  rw [countPath, countPath, String.toList_append, String.toList_append] at hlist
  exact base_of_path (String.toList_inj.mp (List.append_cancel_right hlist))

end

/-- The path of a base is a slash and one segment, from which its name is decoded. No operation on
the base is refused for its path. Different bases differ in both paths, and the path of a base is
never that for counting in any base. -/
theorem path_identifies {s : Session α} (hbase : s.options.base ≠ "") :
    (∃ segment, s.path = "/" ++ segment ∧ segment ≠ "" ∧ Percent.IsSegment segment.toList ∧
      Percent.decode (Utf8.encode segment) = Utf8.encode s.options.base) ∧
    (∀ op path, s.pathOf? op = some path →
      (∀ m, s.message op = .ok m → m.path = path) ∧
      ∀ r : Request, r.path = path → ((∃ bs, r.encode = .ok bs) ↔
        Request.IsToken r.method ∧ ∀ header ∈ r.headers, Request.IsHeaderField header)) ∧
    (∀ s' : Session α, s.options.base ≠ s'.options.base →
      s.path ≠ s'.path ∧ s.countPath ≠ s'.countPath) ∧
    ∀ s' : Session α, s.path ≠ s'.countPath := by
  refine ⟨⟨Percent.encode s.options.base, rfl, fun he => hbase ?_, Percent.isSegment_encode _,
    Percent.decode_encode _⟩, fun op path hpath => ⟨fun m => path_of_message hpath, ?_⟩,
    fun s' hne => ⟨fun h => hne (base_of_path h), fun h => hne (base_of_countPath h)⟩,
    s.path_ne_countPath⟩
  · have hempty : Percent.encode "" = "" := by decide
    exact Percent.encode_injective (he.trans hempty.symm)
  · rintro r rfl
    exact encode_of_isToken (isToken_of_pathOf? hpath)

/-- A base whose name looks like a path for counting, breaks a line and is partly encoded. -/
theorem path_identifies_hostile :
    let s : Session Unit := ⟨{ base := "x/count\r\n%2Fé" }, none⟩
    let s' : Session Unit := ⟨{ base := "x" }, none⟩
    s.options.base ≠ "" ∧ s.path = "/x%2Fcount%0D%0A%252F%C3%A9" ∧ s'.countPath = "/x/count" ∧
      Percent.decode (Utf8.encode "x%2Fcount%0D%0A%252F%C3%A9") =
        Utf8.encode "x/count\r\n%2Fé" ∧
      s.path ≠ s'.path ∧ s.countPath ≠ s'.countPath ∧ s.path ≠ s'.countPath := by
  intro s s'
  have hbase : s.options.base ≠ "" := by decide
  have hpath : s.path = "/x%2Fcount%0D%0A%252F%C3%A9" := by decide +kernel
  obtain ⟨⟨segment, hsegment, -, -, hdecode⟩, -, hdiffer, hcount⟩ := path_identifies hbase
  have hlist : segment.toList = "x%2Fcount%0D%0A%252F%C3%A9".toList := by
    have h := congrArg String.toList (hpath.symm.trans hsegment)
    rw [String.toList_append] at h
    exact (List.cons.inj h).2.symm
  rw [String.toList_inj.mp hlist] at hdecode
  exact ⟨hbase, hpath, by decide +kernel, hdecode, (hdiffer s' (by decide)).1,
    (hdiffer s' (by decide)).2, hcount s'⟩

end BoxClient.Session
