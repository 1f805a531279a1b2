import CodeEmission.Platform.Profile

/-!
# The Conventions of the Host

A concrete profile, that of the platform the program runs on, for statements about single units.
-/

namespace CodeEmission

/-- The conventions of the host, with the usual choices of the user. -/
def Profile.host : Profile :=
  .envStep Triple.host.bucket <| .osStep Triple.host.bucket <|
    .formatStep Triple.host.bucket {} <| .archStep Triple.host.bucket {}
      { bucket := Triple.host.bucket }

/-- They are the profile that is built for the host. -/
theorem Profile.ofTriple_host : Profile.ofTriple Triple.host {} = .ok Profile.host := rfl

end CodeEmission
