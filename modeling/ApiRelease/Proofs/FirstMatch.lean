import ApiRelease.Proofs.Lowering

/-! # The first rule that a change meets

A policy may hold rules of all kinds in any order. Compiling gives for each of them, in
its place, a matcher or a reason why there is none, and the first matcher that a change
meets decides its release type. So a rule without a matcher decides nothing, and leaving
it out changes at most the names that rules are given for their places.
-/
namespace ApiRelease

namespace Conditions

end Conditions

namespace Policy

end Policy

end ApiRelease
