import Muduo.Buffer.Model

/-!
# Results of the socket calls (`SocketsOps.cpp`)

The kernel is not modelled; what it answers is. `sockets::write`,
`sockets::readv` and `sockets::connect` are wrappers that hand on the result
of the system call, so a call in the model takes that result as an argument
and every result is possible.
-/

namespace Muduo

/-- The error numbers the code distinguishes; every other one is `other`. -/
inductive Errno
  | EWOULDBLOCK | EPIPE | ECONNRESET | EINTR | EINPROGRESS | EISCONN
  | EADDRINUSE | EADDRNOTAVAIL | ECONNREFUSED | ENETUNREACH
  | EACCES | EPERM | EAFNOSUPPORT | EALREADY | EBADF | EFAULT | ENOTSOCK
  | other (code : Nat)
  deriving DecidableEq, Repr

/-- What `::write` does with the bytes it is offered: it takes up to `limit`
of them, or it fails. -/
inductive WriteResult
  | accepts (limit : Nat)
  | fails (errno : Errno)
  deriving DecidableEq, Repr

/-- The value `sockets::write` returns for an offer of `len` bytes. -/
def WriteResult.count : WriteResult → Nat → Int
  | .accepts limit, len => (min limit len : Nat)
  | .fails _, _ => -1

/-- The bytes of the offer that entered the socket. -/
def WriteResult.taken : WriteResult → List Byte → List Byte
  | .accepts limit, data => data.take limit
  | .fails _, _ => []

/-- What `Buffer::readFd` returns: data, end of stream, or an error. -/
inductive ReadResult
  | bytes
  | eof
  | fails (errno : Errno)
  deriving DecidableEq, Repr

end Muduo
