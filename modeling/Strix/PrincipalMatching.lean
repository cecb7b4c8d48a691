import Strix.PolicyDocuments

/-!
# Users as principals of bucket policies

`matches_principal` compares a user's name with the entries of the principal list:
an entry is the name itself, or ends in `user/` and the name.  ARNs of users end
so, but other texts do, too.

* `matchesPrincipal_user_iff`: which users a list matches;
* `NamesByArn.unique`: an ARN of a user names one user only;
* `principalsExact_iff`: for which lists exactly the named users are matched;
* `teamUser_matches_bob`: an entry for the user `team/user/bob` matches `bob`.
-/

namespace Strix

/-- What stands in front of `user/` in the ARN of a user: `arn:` and more fields,
each with its colon, and no slash. -/
structure UserHead (head : String) : Prop where
  arn : startsWith head "arn:" = true
  field : endsWith head ":" = true
  slash : '/' ∉ head.toList

instance (head : String) : Decidable (UserHead head) :=
  decidable_of_iff
    (startsWith head "arn:" = true ∧ endsWith head ":" = true ∧ '/' ∉ head.toList)
    ⟨fun h => ⟨h.1, h.2.1, h.2.2⟩, fun h => ⟨h.arn, h.field, h.slash⟩⟩

/-- **The ARN of a user**: its path is `user/` and the name. -/
def NamesByArn (username arn : String) : Prop :=
  ∃ head, arn = head ++ "user/" ++ username ∧ UserHead head

/-- **Named in the list**: by the name itself or by an ARN. -/
def NamedIn (username : String) (principals : List String) : Prop :=
  username ∈ principals ∨ ∃ p ∈ principals, NamesByArn username p

theorem namesByArn_userArn (username : String) : NamesByArn username (userArn username) := by
  have hjoined : "arn:aws:iam:::user/" = "arn:aws:iam:::" ++ "user/" := by decide +kernel
  have hhead : UserHead "arn:aws:iam:::" := by decide +kernel
  refine ⟨"arn:aws:iam:::", ?_, hhead⟩
  unfold userArn
  rw [hjoined]

/-- Two ways to read a text as something with no slash, `user/` and a name agree:
the name stands behind the first slash. -/
theorem userSplit_unique {head head' username username' : String}
    (h : head ++ "user/" ++ username = head' ++ "user/" ++ username')
    (hslash : '/' ∉ head.toList) (hslash' : '/' ∉ head'.toList) :
    head = head' ∧ username = username' := by
  have hfront (text : String) (hno : '/' ∉ text.toList) : '/' ∉ (text ++ "user").toList := by
    rw [String.toList_append, List.mem_append, not_or]
    exact ⟨hno, by decide⟩
  have hsplit (text name : String) :
      (text ++ "user/" ++ name).toList = (text ++ "user").toList ++ '/' :: name.toList := by
    simp
  have htake (front back : List Char) (hno : '/' ∉ front) :
      (front ++ '/' :: back).takeWhile (· ≠ '/') = front := by
    rw [List.takeWhile_append_of_pos]
    · simp
    · intro c hc
      simpa using fun hslash : c = '/' => hno (hslash ▸ hc)
  have hlists := congrArg String.toList h
  rw [hsplit, hsplit] at hlists
  have hheads := congrArg (List.takeWhile (· ≠ '/')) hlists
  rw [htake _ _ (hfront head hslash), htake _ _ (hfront head' hslash')] at hheads
  rw [hheads] at hlists
  have hnames := (List.cons.inj (List.append_cancel_left hlists)).2
  refine ⟨?_, String.toList_inj.mp hnames⟩
  rw [String.toList_append, String.toList_append] at hheads
  exact String.toList_inj.mp (List.append_cancel_right hheads)

/-- **An ARN of a user names one user only.** -/
theorem NamesByArn.unique {arn username username' : String} (h : NamesByArn username arn)
    (h' : NamesByArn username' arn) : username = username' := by
  obtain ⟨head, rfl, hhead⟩ := h
  obtain ⟨head', hsame, hhead'⟩ := h'
  exact (userSplit_unique hsame hhead.slash hhead'.slash).2

/-- **Which users a list matches**: those that are in it by name, and those whose name
stands behind some `user/` at the end of an entry. -/
theorem matchesPrincipal_user_iff {stmt : BucketPolicyStatement} {principals : List String}
    (hspec : stmt.principal = .aws principals) (hstar : "*" ∉ principals) (username : String) :
    stmt.matchesPrincipal (.user username) = true ↔
      username ∈ principals ∨
        ∃ p ∈ principals, ∃ head, p = head ++ "user/" ++ username := by
  have hentry (p : String) (hp : p ∈ principals) :
      (p == "*" || (p == "*" || p == username || endsWith p ("user/" ++ username))) = true ↔
        p = username ∨ ∃ head, p = head ++ "user/" ++ username := by
    have hne : (p == "*") = false := beq_eq_false_iff_ne.mpr fun h => hstar (h ▸ hp)
    rw [hne, Bool.false_or, Bool.false_or, Bool.or_eq_true, beq_iff_eq, endsWith_iff]
    simp only [String.append_assoc]
  unfold BucketPolicyStatement.matchesPrincipal
  rw [hspec]
  simp only [List.any_eq_true]
  constructor
  · intro h
    obtain ⟨p, hp, hmatches⟩ := h
    rcases (hentry p hp).mp hmatches with rfl | hends
    · exact Or.inl hp
    · exact Or.inr ⟨p, hp, hends⟩
  · intro h
    rcases h with hmem | ⟨p, hp, hends⟩
    · exact ⟨username, hmem, (hentry username hmem).mpr (Or.inl rfl)⟩
    · exact ⟨p, hp, (hentry p hp).mpr (Or.inr hends)⟩

/-- **A list matches exactly the users it names** if wherever `user/` occurs in an
entry, the head of a user's ARN stands in front of it, or what stands behind it is
named anyway. -/
theorem principalsExact_iff {stmt : BucketPolicyStatement} {principals : List String}
    (hspec : stmt.principal = .aws principals) (hstar : "*" ∉ principals) :
    (∀ username, stmt.matchesPrincipal (.user username) = true ↔ NamedIn username principals) ↔
      ∀ p ∈ principals, ∀ head username, p = head ++ "user/" ++ username →
        UserHead head ∨ NamedIn username principals := by
  constructor
  · intro h p hp head username hsplit
    refine Or.inr ((h username).mp ?_)
    exact (matchesPrincipal_user_iff hspec hstar username).mpr (Or.inr ⟨p, hp, head, hsplit⟩)
  · intro h username
    rw [matchesPrincipal_user_iff hspec hstar]
    constructor
    · intro hmatches
      rcases hmatches with hmem | ⟨p, hp, head, hsplit⟩
      · exact Or.inl hmem
      · rcases h p hp head username hsplit with hhead | hnamed
        · exact Or.inr ⟨p, hp, head, hsplit, hhead⟩
        · exact hnamed
    · intro hnamed
      rcases hnamed with hmem | ⟨p, hp, head, hsplit, -⟩
      · exact Or.inl hmem
      · exact Or.inr ⟨p, hp, head, hsplit⟩

/-- A statement for the users of a list. -/
def allowUsers (principals : List String) : BucketPolicyStatement where
  effect := .allow
  principal := .aws principals
  actions := .single "s3:GetObject"
  resources := .single "arn:aws:s3:::docs/*"

/-- The ARN of a user whose name has no slash has one `user/` only. -/
theorem userHead_of_userArn {username head name : String} (hplain : '/' ∉ username.toList)
    (h : userArn username = head ++ "user/" ++ name) : UserHead head := by
  obtain ⟨arnHead, harn, hhead⟩ := namesByArn_userArn username
  have hcount := congrArg (fun text => text.toList.count '/') (harn.symm.trans h)
  have hslash : '/' ∉ head.toList := by
    have hnone := List.count_eq_zero.mpr hplain
    have hnoneHead := List.count_eq_zero.mpr hhead.slash
    simp only [String.toList_append, List.count_append, hnone, hnoneHead] at hcount
    refine List.count_eq_zero.mp ?_
    omega
  rw [← (userSplit_unique (harn.symm.trans h) hhead.slash hslash).1]
  exact hhead

/-- The ARN of Alice matches Alice and nobody else. -/
theorem principalsExact_alice :
    (allowUsers [userArn "alice"]).matchesPrincipal (.user "bob") = false ∧
      (allowUsers [userArn "alice"]).matchesPrincipal (.user "alice") = true := by
  have hexact := (@principalsExact_iff (allowUsers [userArn "alice"]) _ rfl (by decide)).mpr ?_
  · refine ⟨?_, (hexact "alice").mpr (Or.inr ⟨_, List.mem_singleton_self _, namesByArn_userArn _⟩)⟩
    rw [← Bool.not_eq_true, hexact "bob"]
    intro hnamed
    rcases hnamed with hmem | ⟨p, hp, hnames⟩
    · exact absurd hmem (by decide)
    · obtain rfl := List.mem_singleton.mp hp
      exact absurd (hnames.unique (namesByArn_userArn "alice")) (by decide)
  · intro p hp head username hsplit
    obtain rfl := List.mem_singleton.mp hp
    exact Or.inl (userHead_of_userArn (by decide) hsplit)

/-- **An entry for another user matches Bob**: its user is called `team/user/bob`. -/
theorem teamUser_matches_bob :
    (allowUsers [userArn "team/user/bob"]).matchesPrincipal (.user "bob") = true ∧
      "*" ∉ [userArn "team/user/bob"] ∧ NamedIn "team/user/bob" [userArn "team/user/bob"] ∧
      ¬NamedIn "bob" [userArn "team/user/bob"] := by
  refine ⟨by decide +kernel, by decide +kernel,
    Or.inr ⟨_, List.mem_singleton_self _, namesByArn_userArn _⟩, ?_⟩
  intro hnamed
  rcases hnamed with hmem | ⟨p, hp, hnames⟩
  · exact absurd hmem (by decide +kernel)
  · obtain rfl := List.mem_singleton.mp hp
    exact absurd (hnames.unique (namesByArn_userArn "team/user/bob")) (by decide)

end Strix
