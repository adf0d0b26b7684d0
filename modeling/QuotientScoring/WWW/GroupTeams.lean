import QuotientScoring.WWW.TeamAgreement

/-! Whether a user's team is the one that a group with the role names.

A pattern grants the team role to a group by `matchesGroup`, and the loops that look for
the team match patterns by themselves: a pattern without a star is a prefix there, and
the number of the team is what the last two bytes of the group read as.
`mapped_by_name_iff`: the team found is that of a number which a group with the role ends
in exactly if the group that decides has the role and ends in no longer number, or
another group of the user makes up for it. -/
namespace QuotientScoring.WWW
open DB GoText Config Decimal

variable (conf : ConfigSettings)

/-- A configured pattern grants the team role to the group. -/
def GrantsTeam (group : GoString) : Prop :=
  ∃ pattern ∈ conf.oidcSettings.oidcTeamGroups, matchesGroup [group] pattern = true

/-- The group has the role, and the whole number it ends in is the team's. -/
def NamesWhole (group : GoString) (team : TeamSchema) : Prop :=
  GrantsTeam conf group ∧
    ∃ n : Nat, numberAtEnd group = some n ∧ team.name = str "team" ++ sprintf02 n

/-- The team found is named by a group of the user. -/
def MappedByName (teams : List TeamSchema) (groups : List GoString) : Prop :=
  ∀ team, mapOIDCUserToTeam conf teams groups = some team →
    ∃ group ∈ groups, NamesWhole conf group team

/-- Both users have teams that their groups name, and only a common number gives them one. -/
structure MappedApart (teams : List TeamSchema) (groups others : List GoString) : Prop where
  own : MappedByName conf teams groups
  other : MappedByName conf teams others
  apart : ∀ team, mapOIDCUserToTeam conf teams groups = some team →
    mapOIDCUserToTeam conf teams others = some team →
    ∃ n, (∃ group ∈ groups, GrantsTeam conf group ∧ numberAtEnd group = some n) ∧
      ∃ group ∈ others, GrantsTeam conf group ∧ numberAtEnd group = some n

/-! ### The group that decides -/

def lastTwo (group : GoString) : GoString := group.drop (group.length - 2)

/-- The first group that has, under some pattern, a team of the list in its last two bytes. -/
def Decides (teams : List TeamSchema) (groups : List GoString) (group : GoString) : Prop :=
  ∃ before pattern after, groupPatterns conf groups = before ++ (group, pattern) :: after ∧
    (∃ team ∈ teams, Names group pattern team) ∧
    ∀ tried ∈ before, ∀ team ∈ teams, ¬Names tried.1 tried.2 team

/-- A plus and a digit, minus zero, or two digits with nothing but zeros for digits before. -/
def EndsInTwo (group : GoString) : Prop :=
  (lastTwo group).head? = some 43 ∨ lastTwo group = [45, 48] ∨
    (∀ c ∈ lastTwo group, IsDigit c) ∧
      ∀ c ∈ digitsAtEnd (group.take (group.length - 2)), c = 48

/-- The group that decides has the role and ends in two digits, or another group that has the
role ends in the same number. -/
def WellNamed (teams : List TeamSchema) (groups : List GoString) : Prop :=
  ∀ group, Decides conf teams groups group →
    GrantsTeam conf group ∧ EndsInTwo group ∨
    ∃ other ∈ groups, other ≠ group ∧ GrantsTeam conf other ∧
      (numberAtEnd other).map Int.ofNat = atoi (lastTwo group)

/-! ### Two bytes and the whole number -/

theorem atoi_pair {a b : UInt8} {num : Int} (h : atoi [a, b] = some num) :
    IsDigit b ∧ (a = 43 ∧ num = digitsValue [b] ∨ a = 45 ∧ num = -(digitsValue [b] : Int) ∨
      IsDigit a ∧ num = digitsValue [a, b]) := by
  have hparsed := (Option.filter_eq_some_iff.mp h).1
  by_cases hplus : a = 43
  · subst hplus
    obtain ⟨n, hn, rfl⟩ : ∃ n, parseDigits [b] = some n ∧ (n : Int) = num := by
      simpa [Option.bind_eq_some_iff] using hparsed
    obtain ⟨-, hdigits, rfl⟩ := parseDigits_eq_some.mp hn
    exact ⟨hdigits b (List.mem_singleton_self b), .inl ⟨rfl, rfl⟩⟩
  · by_cases hminus : a = 45
    · subst hminus
      obtain ⟨n, hn, rfl⟩ : ∃ n, parseDigits [b] = some n ∧ -(n : Int) = num := by
        simpa [Option.bind_eq_some_iff] using hparsed
      obtain ⟨-, hdigits, rfl⟩ := parseDigits_eq_some.mp hn
      exact ⟨hdigits b (List.mem_singleton_self b), .inr (.inl ⟨rfl, rfl⟩)⟩
    · obtain ⟨n, hn, rfl⟩ : ∃ n, parseDigits [a, b] = some n ∧ (n : Int) = num := by
        simpa [hplus, hminus, Option.bind_eq_some_iff] using hparsed
      obtain ⟨-, hdigits, rfl⟩ := parseDigits_eq_some.mp hn
      exact ⟨hdigits b (by simp), .inr (.inr ⟨hdigits a (by simp), rfl⟩)⟩

theorem exists_pair {group : GoString} (h : 2 ≤ group.length) :
    ∃ before a b, group = before ++ [a, b] ∧ lastTwo group = [a, b] ∧
      group.take (group.length - 2) = before := by
  have hlen : (lastTwo group).length = 2 := by
    rw [lastTwo, List.length_drop]
    omega
  obtain ⟨a, b, htwo⟩ := List.length_eq_two.mp hlen
  refine ⟨_, a, b, ?_, htwo, rfl⟩
  rw [← htwo]
  exact (List.take_append_drop _ group).symm

/-- What follows a byte that is no digit is all there is of the number. -/
theorem numberAtEnd_sign {a b : UInt8} (ha : ¬IsDigit a) (hb : IsDigit b) (before : GoString) :
    numberAtEnd (before ++ [a, b]) = some (digitsValue [b]) := by
  have hsplit : before ++ [a, b] = (before ++ [a]) ++ [b] := by simp
  rw [hsplit, numberAtEnd_append _ (List.cons_ne_nil _ _) (by simpa using hb),
    digitsAtEnd_concat_of_not ha]
  have hnil : digitsValue [] = 0 := rfl
  rw [hnil, Nat.mul_zero, Nat.zero_add]

/-- What a group has in its last two bytes is the whole number it ends in, or not. -/
theorem numberAtEnd_eq_iff {group : GoString} {num : Int} (hlong : 2 ≤ group.length)
    (h : atoi (lastTwo group) = some num) :
    (∃ n : Nat, numberAtEnd group = some n ∧ (n : Int) = num) ↔ EndsInTwo group := by
  obtain ⟨before, a, b, hsplit, htwo, hbefore⟩ := exists_pair hlong
  rw [htwo] at h
  unfold EndsInTwo
  rw [htwo, hbefore, hsplit]
  obtain ⟨hb, hcases⟩ := atoi_pair h
  rcases hcases with ⟨rfl, rfl⟩ | ⟨rfl, rfl⟩ | ⟨ha, rfl⟩
  · -- a plus
    rw [numberAtEnd_sign (by decide) hb]
    simp
  · -- a minus is read along with the digit, and only zero is what it was
    rw [numberAtEnd_sign (by decide) hb]
    have hvalue : digitsValue [b] = 0 ↔ b = 48 := by
      rw [digitsValue_eq_zero (by simpa using hb)]
      simp
    have hneg : ((digitsValue [b] : Nat) : Int) = -(digitsValue [b] : Int) ↔ b = 48 := by
      rw [← hvalue]
      omega
    have hsign : ¬IsDigit 45 := by decide
    simp only [Option.some.injEq, exists_eq_left', hneg]
    simp [hsign]
  · have hdigits : ∀ c ∈ [a, b], IsDigit c := by simp [ha, hb]
    have hplus : a ≠ 43 := by
      rintro rfl
      exact absurd ha (by decide)
    have hminus : a ≠ 45 := by
      rintro rfl
      exact absurd ha (by decide)
    rw [numberAtEnd_append _ (List.cons_ne_nil _ _) hdigits,
      ← digitsValue_eq_zero (fun c hc => isDigit_of_mem_digitsAtEnd hc)]
    have hvalue : ((10 ^ [a, b].length * digitsValue (digitsAtEnd before) + digitsValue [a, b] : Nat) :
        Int) = digitsValue [a, b] ↔ digitsValue (digitsAtEnd before) = 0 := by
      rw [show [a, b].length = 2 from rfl]
      omega
    simp only [Option.some.injEq, exists_eq_left', hvalue]
    simp [hplus, hminus, ha, hb]

/-! ### The team found -/

section
variable {conf} {teams : List TeamSchema} {groups others : List GoString} {group : GoString}
  {team : TeamSchema}

theorem mem_of_decides (h : Decides conf teams groups group) : group ∈ groups := by
  obtain ⟨before, pattern, after, hsplit, -⟩ := h
  have hmem : (group, pattern) ∈ groupPatterns conf groups := by
    rw [hsplit]
    exact List.mem_append_right _ List.mem_cons_self
  obtain ⟨other, hother, hpair⟩ := List.mem_flatMap.mp hmem
  obtain ⟨pattern', -, heq⟩ := List.mem_map.mp hpair
  obtain rfl := congrArg Prod.fst heq
  exact hother

/-- A team is found through the group that decides. -/
theorem decides_of_mapped (h : mapOIDCUserToTeam conf teams groups = some team) :
    ∃ group pattern, Decides conf teams groups group ∧ Names group pattern team := by
  rw [mapOIDCUserToTeam_eq, List.findSome?_eq_some_iff] at h
  obtain ⟨before, ⟨group, pattern⟩, after, hsplit, hteam, hbefore⟩ := h
  obtain ⟨hmem, hnames⟩ := names_of_teamOfGroup hteam
  exact ⟨group, pattern, ⟨before, pattern, after, hsplit, ⟨team, hmem, hnames⟩,
    fun tried htried => teamOfGroup_eq_none.mp (hbefore tried htried)⟩, hnames⟩

theorem mapped_of_decides (h : Decides conf teams groups group) :
    ∃ team pattern, mapOIDCUserToTeam conf teams groups = some team ∧ Names group pattern team := by
  obtain ⟨before, pattern, after, hsplit, ⟨named, hmem, hnames⟩, hbefore⟩ := h
  cases hteam : teamOfGroup teams group pattern with
  | none => exact absurd hnames (teamOfGroup_eq_none.mp hteam named hmem)
  | some team =>
    refine ⟨team, pattern, ?_, (names_of_teamOfGroup hteam).2⟩
    rw [mapOIDCUserToTeam_eq, List.findSome?_eq_some_iff]
    exact ⟨before, (group, pattern), after, hsplit, hteam,
      fun tried htried => teamOfGroup_eq_none.mpr (hbefore tried htried)⟩

/-- The number of the team is the one in the last two bytes. -/
theorem number_eq {pattern : GoString} (h : Names group pattern team) (n : Nat) :
    team.name = str "team" ++ sprintf02 n ↔ atoi (lastTwo group) = some (n : Int) := by
  obtain ⟨num, hnum, hname⟩ := h.number
  have hlast : atoi (lastTwo group) = some num := hnum
  rw [hname, List.append_cancel_left_eq, sprintf02_eq_natCast, hlast, Option.some.injEq]

theorem mappedByName_iff : MappedByName conf teams groups ↔ WellNamed conf teams groups := by
  constructor
  · intro hmapped group hdecides
    obtain ⟨team, pattern, hteam, hnames⟩ := mapped_of_decides hdecides
    obtain ⟨other, hother, hgrants, n, hend, hname⟩ := hmapped team hteam
    have hnum := (number_eq hnames n).mp hname
    by_cases heq : other = group
    · subst heq
      exact .inl ⟨hgrants, (numberAtEnd_eq_iff hnames.long hnum).mp ⟨n, hend, rfl⟩⟩
    · exact .inr ⟨other, hother, heq, hgrants, by rw [hend, hnum]; rfl⟩
  · intro hwell team hteam
    obtain ⟨group, pattern, hdecides, hnames⟩ := decides_of_mapped hteam
    obtain ⟨num, hnum, -⟩ := hnames.number
    rcases hwell group hdecides with ⟨hgrants, hends⟩ | ⟨other, hother, -, hgrants, hend⟩
    · obtain ⟨n, hend, rfl⟩ := (numberAtEnd_eq_iff hnames.long hnum).mpr hends
      exact ⟨group, mem_of_decides hdecides, hgrants, n, hend, (number_eq hnames n).mpr hnum⟩
    · rw [lastTwo, hnum] at hend
      obtain ⟨n, hn, rfl⟩ := Option.map_eq_some_iff.mp hend
      exact ⟨other, hother, hgrants, n, hn, (number_eq hnames n).mpr hnum⟩

end

/-- Users have the teams that their groups name, and so different ones for different numbers,
exactly if the groups that decide are well named. -/
theorem mapped_by_name_iff (conf : ConfigSettings) (teams : List TeamSchema)
    (groups others : List GoString) :
    MappedApart conf teams groups others ↔
      WellNamed conf teams groups ∧ WellNamed conf teams others := by
  constructor
  · intro h
    exact ⟨mappedByName_iff.mp h.own, mappedByName_iff.mp h.other⟩
  · intro h
    have hown := mappedByName_iff.mpr h.1
    have hother := mappedByName_iff.mpr h.2
    refine ⟨hown, hother, ?_⟩
    intro team hteam hteam'
    obtain ⟨group, hgroup, hgrants, n, hend, hname⟩ := hown team hteam
    obtain ⟨group', hgroup', hgrants', n', hend', hname'⟩ := hother team hteam'
    have hsame : n = n' := by
      rw [hname, List.append_cancel_left_eq, sprintf02_eq_natCast] at hname'
      exact Int.ofNat_inj.mp hname'
    subst hsame
    exact ⟨n, ⟨group, hgroup, hgrants, hend⟩, group', hgroup', hgrants', hend'⟩

/-- A group without the role, which a pattern without a star is a prefix of, beside one that has the
role and no number; and the groups of the first team and of the hundred and first. -/
theorem mapped_without_name :
    let teams : List TeamSchema := [⟨1, str "team01", str "01", true⟩, ⟨2, str "team02", str "02", true⟩]
    ¬MappedByName {oidcSettings := {oidcTeamGroups := [str "Blue01", str "Players"]}} teams
      [str "Blue01_guests_02", str "Players"] ∧
    ¬MappedApart {oidcSettings := {oidcTeamGroups := [str "Blue*"]}} teams
      [str "Blue01"] [str "Blue101"] := by
  dsimp only
  refine ⟨?_, ?_⟩
  · intro hmapped
    obtain ⟨group, hgroup, ⟨pattern, hpattern, hmatches⟩, n, hend, -⟩ :=
      hmapped ⟨2, str "team02", str "02", true⟩ (by decide +kernel)
    rcases List.mem_pair.mp hgroup with rfl | rfl
    · rcases List.mem_pair.mp hpattern with rfl | rfl <;> exact absurd hmatches (by decide +kernel)
    · have hnone : numberAtEnd (str "Players") = none := by decide +kernel
      exact nomatch hend.symm.trans hnone
  · intro happart
    obtain ⟨n, ⟨group, hgroup, -, hend⟩, other, hother, -, hend'⟩ :=
      happart.apart ⟨1, str "team01", str "01", true⟩ (by decide +kernel) (by decide +kernel)
    obtain rfl := List.mem_singleton.mp hgroup
    obtain rfl := List.mem_singleton.mp hother
    exact absurd (hend.trans hend'.symm) (by decide +kernel)

end QuotientScoring.WWW
