/-! # Return codes

The library returns `NO_ERROR` or a positive errno; libbpf returns negative error codes.
The errno values are those of Linux.
-/

namespace Nikss

/-- Modelled from the spec: `NO_ERROR` is defined in `common.h`, which is not among the
sources; every caller treats it as the success code, zero. -/
def NO_ERROR : Int := 0

def EPERM : Nat := 1
def ENOENT : Nat := 2
def E2BIG : Nat := 7
def EBADF : Nat := 9
def EEXIST : Nat := 17
def ENODEV : Nat := 19
def EINVAL : Nat := 22
def ENODATA : Nat := 61
def EOPNOTSUPP : Nat := 95

/-- The program and map names of `bpf_defs.h`, which is not among the sources: taken as
parameters. The XDP helper and the XDP ingress program have different names, which the
flavour detection relies on. -/
structure BpfDefs where
  tcIngressProg : String
  tcEgressProg : String
  xdpIngressProg : String
  xdpEgressProg : String
  xdpEgressProgOptimized : String
  xdpHelperProg : String
  tcInitProg : String
  xdpInitProg : String
  xdpDevmap : String
  xdpJumpTbl : String
  helper_ne_ingress : xdpHelperProg ≠ xdpIngressProg

end Nikss
